import Spreadsheet.Proofs.Formula.Derivation
import Spreadsheet.Proofs.Formula.Grouping

/-!
# The grammar of formulas

The grammar has one category for each level of operators, so that it says by itself how operators
bind: an operator has its own level on the left and the next one on the right. It mentions neither
chains nor what follows a formula, and the reader mentions no levels before a chain is complete.

The main statement is that the two agree: a text is read as a formula exactly if its tokens, up to
a clean end of the text, are spelled by the grammar, and no tokens spell two formulas.
-/

namespace Spreadsheet

/-- The operators of a level, from the loosest to the tightest. -/
def BinaryOp.ofLevel : Nat → List BinaryOp
  | 1 => [equal, notEqual]
  | 2 => [less, lessEqual, greater, greaterEqual]
  | 3 => [add, subtract]
  | 4 => [multiply, divide]
  | 5 => [power]
  | _ => []

theorem BinaryOp.mem_ofLevel {op : BinaryOp} {level : Nat} :
    op ∈ ofLevel level ↔ op.precedence = level := by
  constructor
  · intro h
    unfold ofLevel at h
    split at h <;> cases op <;> first | rfl | simp at h
  · rintro rfl
    cases op <;> decide

namespace Formula

/-- `Names written r` says that what is written as a reference is the reference `r`, or that it is
one to no place of the grid, which can only be said of what ends in a digit. -/
inductive Names : String → Option Reference → Prop where
  | onGrid {written : String} {r : Reference} :
    Reference.ofText written = .ok r → Names written (some r)
  | offGrid {written : String} {fault : AddressError} :
    Reference.ofText written = .error fault → endsInDigit written.toList → Names written none

/-- The categories of the grammar. -/
inductive Category where
  /-- Formulas with operators of a level or of tighter ones. -/
  | level (n : Nat) (e : Expr)
  | primary (e : Expr)
  /-- Formulas with commas between them. -/
  | arguments (args : List Expr)

/-- `Spells ts c` says that the tokens `ts` are a word of the category `c`. -/
inductive Spells : List Token → Category → Prop where
  | binary {n : Nat} {op : BinaryOp} {left right : Expr} {ts us : List Token} :
    op ∈ BinaryOp.ofLevel n → Spells ts (.level n left) → Spells us (.level (n + 1) right) →
      Spells (ts ++ .operator op :: us) (.level n (.binary op left right))
  | tighter {n : Nat} {e : Expr} {ts : List Token} :
    Spells ts (.level (n + 1) e) → Spells ts (.level n e)
  /-- Behind the last level of operators there are primaries. -/
  | primary {e : Expr} {ts : List Token} : Spells ts (.primary e) → Spells ts (.level 6 e)
  | number (n : Float) : Spells [.number n] (.primary (.number n))
  | text (s : String) : Spells [.text s] (.primary (.text s))
  | boolean (b : Bool) : Spells [.boolean b] (.primary (.boolean b))
  | lost : Spells [.lost] (.primary .lost)
  | cell {written : String} {r : Reference} :
    Names written (some r) → Spells [.reference written] (.primary (.cell r))
  | lostCell {written : String} :
    Names written none → Spells [.reference written] (.primary .lost)
  | range {first second : String} {a b : Reference} :
    Names first (some a) → Names second (some b) →
      Spells [.reference first, .colon, .reference second] (.primary (.range a b))
  | lostRange {first second : String} {a b : Option Reference} :
    Names first a → Names second b → a = none ∨ b = none →
      Spells [.reference first, .colon, .reference second] (.primary .lost)
  | emptyCall (name : String) :
    Spells [.function name, .leftParen, .rightParen] (.primary (.call name []))
  | call {name : String} {args : List Expr} {ts : List Token} : Spells ts (.arguments args) →
      Spells (.function name :: .leftParen :: (ts ++ [.rightParen])) (.primary (.call name args))
  | parens {e : Expr} {ts : List Token} : Spells ts (.level 1 e) →
      Spells (.leftParen :: (ts ++ [.rightParen])) (.primary e)
  | negate {e : Expr} {ts : List Token} : Spells ts (.primary e) →
      Spells (.operator .subtract :: ts) (.primary (.negate e))
  | last {e : Expr} {ts : List Token} : Spells ts (.level 1 e) → Spells ts (.arguments [e])
  | comma {e : Expr} {args : List Expr} {ts us : List Token} : Spells ts (.level 1 e) →
      Spells us (.arguments args) → Spells (ts ++ .comma :: us) (.arguments (e :: args))

variable {ts us rest : List Token} {e first : Expr} {more : List (BinaryOp × Expr)}

theorem resolve_eq_ok_iff {written : String} {r : Option Reference} :
    resolve written = .ok r ↔ Names written r := by
  unfold resolve
  constructor
  · intro h
    cases found : Reference.ofText written with
    | ok r' =>
        rw [found] at h
        cases h
        exact .onGrid found
    | error fault =>
        rw [found] at h
        by_cases digit : endsInDigit written.toList
        · simp only [digit, ↓reduceIte] at h
          cases h
          exact .offGrid found digit
        · simp [digit] at h
  · intro h
    cases h with
    | onGrid found => rw [found]
    | offGrid found digit => simp only [found, digit, ↓reduceIte]

/-! ### What is derived is spelled -/

/-- Operators with a word of a level behind each. -/
inductive SpellsMore (n : Nat) : List Token → List (BinaryOp × Expr) → Prop where
  | nil : SpellsMore n [] []
  | cons {op : BinaryOp} {e : Expr} {more : List (BinaryOp × Expr)} {ts us : List Token} :
    Spells ts (.level n e) → SpellsMore n us more →
      SpellsMore n (.operator op :: (ts ++ us)) ((op, e) :: more)

/-- The sweep of a level turns words of the next level into words of this one. -/
theorem spells_mergeLevel {n : Nat} (hfirst : Spells ts (.level n first))
    (hmore : SpellsMore (n + 1) us more) :
    ∃ ts' us', ts ++ us = ts' ++ us' ∧ Spells ts' (.level n (Expr.mergeLevel n first more).1) ∧
      SpellsMore n us' (Expr.mergeLevel n first more).2 := by
  induction hmore generalizing ts first with
  | nil => exact ⟨ts, [], rfl, hfirst, .nil⟩
  | @cons op e more vs us hx _ ih =>
      by_cases same : op.precedence = n
      · have joined := Spells.binary (BinaryOp.mem_ofLevel.mpr same) hfirst hx
        obtain ⟨ts', us', whole, front, behind⟩ := ih joined
        rw [Expr.mergeLevel_cons_of_eq same]
        refine ⟨ts', us', ?_, front, behind⟩
        rw [← whole, List.append_assoc, List.cons_append]
      · obtain ⟨ts', us', whole, front, behind⟩ := ih hx.tighter
        rw [Expr.mergeLevel_cons_of_ne same]
        refine ⟨ts, .operator op :: (ts' ++ us'), ?_, hfirst, .cons front behind⟩
        rw [whole]

theorem spells_mergeLevels {n : Nat} (hfirst : Spells ts (.level (n + 1) first))
    (hmore : SpellsMore (n + 1) us more) (loose : ∀ y ∈ more, y.1.precedence ≤ n) :
    Spells (ts ++ us) (.level 1 (Expr.mergeLevels n first more)) := by
  induction n generalizing ts us first more with
  | zero =>
      cases hmore with
      | nil =>
          rw [List.append_nil]
          exact hfirst
      | @cons op e more ts us _ _ =>
          have none : op.precedence ≤ 0 := loose (op, e) List.mem_cons_self
          have := op.one_le_precedence
          omega
  | succ n ih =>
      obtain ⟨ts', us', whole, front, behind⟩ := spells_mergeLevel hfirst.tighter hmore
      rw [whole]
      apply ih front behind
      intro y hy
      exact Nat.lt_succ_iff.mp (Expr.precedence_lt_of_mem_mergeLevel loose y hy)

/-- Whether tokens are a word of the category that a phrase belongs to. -/
def Phrase.IsSpelled (ts : List Token) : Phrase → Prop
  | .operand e => Spells ts (.primary e)
  | .chain e => Spells ts (.level 1 e)
  | .more found => SpellsMore 6 ts found
  | .arguments args => Spells ts (.arguments args)

theorem spells_loneExpr {written : String} {r : Option Reference}
    (hresolve : resolve written = .ok r) : Spells [.reference written] (.primary (loneExpr r)) := by
  have named := resolve_eq_ok_iff.mp hresolve
  cases r with
  | none => exact .lostCell named
  | some r => exact .cell named

theorem spells_rangeExpr {first second : String} {a b : Option Reference}
    (hfirst : resolve first = .ok a) (hsecond : resolve second = .ok b) :
    Spells [.reference first, .colon, .reference second] (.primary (rangeExpr a b)) := by
  have named := resolve_eq_ok_iff.mp hfirst
  have named' := resolve_eq_ok_iff.mp hsecond
  cases a with
  | none => exact .lostRange named named' (.inl rfl)
  | some a =>
      cases b with
      | none => exact .lostRange named named' (.inr rfl)
      | some b => exact .range named named'

/-- What is derived from the front of a stream is spelled by the tokens in front of the rest. -/
theorem Derives.isSpelled {phrase : Phrase} (h : Derives ts phrase rest) :
    ∃ us, ts = us ++ rest ∧ phrase.IsSpelled us := by
  induction h with
  | number n ts => exact ⟨[.number n], rfl, .number n⟩
  | text s ts => exact ⟨[.text s], rfl, .text s⟩
  | boolean b ts => exact ⟨[.boolean b], rfl, .boolean b⟩
  | lost ts => exact ⟨[.lost], rfl, .lost⟩
  | lone hresolve _ => exact ⟨_, rfl, spells_loneExpr hresolve⟩
  | range hfirst hsecond => exact ⟨_, rfl, spells_rangeExpr hfirst hsecond⟩
  | emptyCall name ts => exact ⟨_, rfl, .emptyCall name⟩
  | @call name args ts rest _ _ ih =>
      obtain ⟨us, rfl, inside⟩ := ih
      exact ⟨.function name :: .leftParen :: (us ++ [Token.rightParen]), by simp, .call inside⟩
  | parens _ ih =>
      obtain ⟨us, rfl, inside⟩ := ih
      exact ⟨.leftParen :: (us ++ [Token.rightParen]), by simp, .parens inside⟩
  | negate _ ih =>
      obtain ⟨us, rfl, inside⟩ := ih
      exact ⟨.operator .subtract :: us, rfl, .negate inside⟩
  | chain _ _ ih ih' =>
      obtain ⟨us, rfl, hfirst⟩ := ih
      obtain ⟨us', rfl, hmore⟩ := ih'
      refine ⟨us ++ us', by simp, ?_⟩
      exact spells_mergeLevels (.primary hfirst) hmore fun y _ => y.1.precedence_le_five
  | @more op _ _ _ _ _ _ _ ih ih' =>
      obtain ⟨us, rfl, hx⟩ := ih
      obtain ⟨us', rfl, hmore⟩ := ih'
      exact ⟨.operator op :: (us ++ us'), by simp, .cons (.primary hx) hmore⟩
  | done => exact ⟨[], rfl, .nil⟩
  | last _ _ ih =>
      obtain ⟨us, rfl, only⟩ := ih
      exact ⟨us, rfl, .last only⟩
  | comma _ _ ih ih' =>
      obtain ⟨us, rfl, front⟩ := ih
      obtain ⟨us', rfl, behind⟩ := ih'
      exact ⟨us ++ .comma :: us', by simp, .comma front behind⟩

/-! ### What is spelled is derived -/

/-- No word begins with a closing parenthesis. -/
theorem Spells.head?_ne_rightParen {c : Category} (h : Spells ts c) (rest : List Token) :
    (ts ++ rest).head? ≠ some .rightParen := by
  induction h generalizing rest with
  | binary _ _ _ ih _ =>
      rw [List.append_assoc]
      exact ih _
  | tighter _ ih => exact ih rest
  | primary _ ih => exact ih rest
  | last _ ih => exact ih rest
  | comma _ _ ih _ =>
      rw [List.append_assoc]
      exact ih _
  | _ => simp

/-- What the readers make of a word. A word of a level is the beginning of a chain, and its tree
is the one in which the operators of the chain are grouped. -/
def Category.IsDerived (ts : List Token) : Category → Prop
  | level n e => ∃ first found, Expr.Groups n first found e ∧
    ∀ rest, rest.head? ≠ some .colon → ∃ mid, Derives (ts ++ rest) (.operand first) mid ∧
      ∀ more rest', Derives rest (.more more) rest' → Derives mid (.more (found ++ more)) rest'
  | primary e => ∀ rest, rest.head? ≠ some .colon → Derives (ts ++ rest) (.operand e) rest
  | arguments args => ∀ rest,
    Derives (ts ++ .rightParen :: rest) (.arguments args) (.rightParen :: rest)

/-- A word of the loosest level is a chain if neither an operator nor a colon follows. -/
theorem Category.IsDerived.chain (h : (Category.level 1 e).IsDerived ts) (rest : List Token)
    (noOperator : ∀ op, rest.head? ≠ some (.operator op)) (noColon : rest.head? ≠ some .colon) :
    Derives (ts ++ rest) (.chain e) rest := by
  obtain ⟨first, found, groups, derives⟩ := h
  obtain ⟨mid, hfirst, hmore⟩ := derives rest noColon
  have whole := hfirst.chain (hmore [] rest (.done noOperator))
  rw [List.append_nil, groups.ofChain_eq] at whole
  exact whole

theorem Spells.isDerived {c : Category} (h : Spells ts c) : c.IsDerived ts := by
  induction h with
  | @binary n op left right ts us level _ _ hleft hright =>
      obtain ⟨first, found, groups, derives⟩ := hleft
      obtain ⟨x, found', groups', derives'⟩ := hright
      rw [← BinaryOp.mem_ofLevel.mp level] at groups groups' ⊢
      refine ⟨first, found ++ (op, x) :: found', .binary groups groups', ?_⟩
      intro rest noColon
      obtain ⟨mid, hx, hmore'⟩ := derives' rest noColon
      obtain ⟨start, hfirst, hmore⟩ := derives (.operator op :: (us ++ rest)) (by simp)
      refine ⟨start, by simpa using hfirst, ?_⟩
      intro more rest' h
      simpa using hmore ((op, x) :: (found' ++ more)) rest' (.more hx (hmore' more rest' h))
  | tighter _ ih =>
      obtain ⟨first, found, groups, derives⟩ := ih
      exact ⟨first, found, .tighter groups, derives⟩
  | @primary e ts _ ih =>
      exact ⟨e, [], .single 6 e, fun rest noColon => ⟨rest, ih rest noColon, fun _ _ h => h⟩⟩
  | number n => exact fun rest _ => .number n rest
  | text s => exact fun rest _ => .text s rest
  | boolean b => exact fun rest _ => .boolean b rest
  | lost => exact fun rest _ => .lost rest
  | cell named => exact fun rest noColon => .lone (resolve_eq_ok_iff.mpr named) noColon
  | lostCell named => exact fun rest noColon => .lone (resolve_eq_ok_iff.mpr named) noColon
  | range named named' =>
      exact fun rest _ => .range (resolve_eq_ok_iff.mpr named) (resolve_eq_ok_iff.mpr named')
  | @lostRange first second a b named named' lost =>
      intro rest _
      have off : rangeExpr a b = .lost := by
        rcases lost with rfl | rfl
        · cases b <;> rfl
        · cases a <;> rfl
      rw [← off]
      exact .range (resolve_eq_ok_iff.mpr named) (resolve_eq_ok_iff.mpr named')
  | emptyCall name => exact fun rest _ => .emptyCall name rest
  | @call name args ts inside ih =>
      intro rest _
      have noClose := inside.head?_ne_rightParen (.rightParen :: rest)
      have closed : Derives (.function name :: .leftParen :: (ts ++ .rightParen :: rest))
          (.operand (.call name args)) rest := .call noClose (ih rest)
      simpa using closed
  | parens _ ih =>
      intro rest _
      simpa using Derives.parens (ih.chain (.rightParen :: rest) (by simp) (by simp))
  | negate _ ih => exact fun rest noColon => .negate (ih rest noColon)
  | last _ ih =>
      intro rest
      exact .last (ih.chain (.rightParen :: rest) (by simp) (by simp)) (by simp)
  | @comma e args ts us _ _ ih ih' =>
      intro rest
      have front := ih.chain (.comma :: (us ++ .rightParen :: rest)) (by simp) (by simp)
      simpa using Derives.comma front (ih' rest)

/-! ### Reading is spelling -/

theorem derives_iff_spells : Derives ts (.chain e) [.finish] ↔
    ∃ us, ts = us ++ [.finish] ∧ Spells us (.level 1 e) := by
  constructor
  · intro h
    exact h.isSpelled
  · rintro ⟨us, rfl, spelled⟩
    exact spelled.isDerived.chain [.finish] (by simp) (by simp)

/-- No tokens spell two formulas. -/
theorem Spells.unique {e' : Expr} (h : Spells ts (.level 1 e)) (h' : Spells ts (.level 1 e')) :
    e = e' := by
  have found := (derives_iff_spells.mpr ⟨ts, rfl, h⟩).isRead
  have found' := (derives_iff_spells.mpr ⟨ts, rfl, h'⟩).isRead
  have same := (found _ (Nat.le_refl _)).symm.trans (found' _ (Nat.le_refl _))
  injection same with same
  exact congrArg Prod.fst same

/-- A text is read as a formula exactly if its tokens, up to a clean end of the text, spell that
formula, and tokens spell at most one formula. -/
theorem parse_eq_ok_iff_spells (text : String) :
    (∀ e, parse text = .ok e ↔
      ∃ ts, tokenize text = ts ++ [.finish] ∧ Spells ts (.level 1 e)) ∧
    ∀ ts e e', Spells ts (.level 1 e) → Spells ts (.level 1 e') → e = e' := by
  constructor
  · intro e
    exact ofTokens_tokens_eq_ok_iff.trans derives_iff_spells
  · intro ts e e' h h'
    exact h.unique h'

/-- A power whose base has a sign. -/
def signedPower : String :=
  "=-A1^XFE1"

/-- The sign belongs to the base and not to the power, and the second reference is lost. -/
theorem parse_eq_ok_iff_spells_signedPower :
    ∃ ts, tokenize signedPower = ts ++ [.finish] ∧
      Spells ts (.level 1 (.binary .power (.negate (.cell ⟨⟨0, 0⟩, false, false⟩)) .lost)) ∧
      ¬ Spells ts (.level 1 (.negate (.binary .power (.cell ⟨⟨0, 0⟩, false, false⟩) .lost))) := by
  obtain ⟨accepts, unique⟩ := parse_eq_ok_iff_spells signedPower
  have tokens : tokenize signedPower = [.operator .subtract, .reference "A1", .operator .power,
      .reference "XFE1", .finish] := by decide +kernel
  have tree : parse signedPower =
      .ok (.binary .power (.negate (.cell ⟨⟨0, 0⟩, false, false⟩)) .lost) := by
    rw [parse, tokens]
    rfl
  obtain ⟨ts, whole, spelled⟩ := (accepts _).mp tree
  refine ⟨ts, whole, spelled, ?_⟩
  intro other
  cases unique ts _ _ spelled other

end Formula

end Spreadsheet
