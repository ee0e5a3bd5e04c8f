import Spreadsheet.Proofs.Formula.Derivation
import Spreadsheet.Proofs.Formula.Grouping

/-!
# Reading a chain by climbing

A chain can be read and grouped in one go. An operator is taken if it binds tightly enough for the
place where it stands. What follows it is read first, as far as it binds tighter than the operator,
and becomes its right side; then the next operator is looked at, with all of this on its left.

The main statement is that this finds the same tree as reading the chain as a whole and grouping it
level by level, leaves the same tokens, and meets the same fault if there is one.
-/

namespace Spreadsheet

theorem Expr.Groups.of_le {low low' : Nat} {first e : Expr} {more : List (BinaryOp × Expr)}
    (h : Expr.Groups low' first more e) (le : low ≤ low') : Expr.Groups low first more e := by
  induction le with
  | refl => exact h
  | step _ ih => exact ih h.tighter

namespace Formula

/-- Reads the operators in front of the tokens that bind at least as tightly as `least`, each with
what stands on its right, and applies them as they come, the first one to `left`. -/
def readClimbing (operand : OperandReader) :
    Nat → Nat → Expr → List Token → Except ParseFault (Expr × List Token)
  | tries + 1, least, left, .operator op :: ts =>
    if op.precedence < least then return (left, .operator op :: ts)
    else do
      let (x, ts) ← operand ts
      let (right, ts) ← readClimbing operand tries (op.precedence + 1) x ts
      readClimbing operand tries least (.binary op left right) ts
  | _, _, left, ts => return (left, ts)

/-- The chain in front of the tokens, behind its first operand, and what is left. -/
def readRest (operand : OperandReader) (ts : List Token) :
    Except ParseFault (List (BinaryOp × Expr) × List Token) :=
  readMore operand ts.length ts

variable {operand : OperandReader} {op : BinaryOp} {least : Nat} {left right x e : Expr}
  {taken taken' : List (BinaryOp × Expr)} {ts ts' us us' : List Token} {fault : ParseFault}

/-- Either an operator comes next, or the chain is over. -/
theorem operator_or_done (ts : List Token) :
    (∃ op behind, ts = .operator op :: behind) ∨ ∀ op, ts.head? ≠ some (.operator op) := by
  by_cases operator : ∃ op, ts.head? = some (.operator op)
  · obtain ⟨op, head⟩ := operator
    obtain ⟨behind, same⟩ := List.head?_eq_some_iff.mp head
    exact .inl ⟨op, behind, same⟩
  · exact .inr fun op head => operator ⟨op, head⟩

/-! ### One step -/

section Step

variable {tries : Nat}

theorem readMore_ok (found : operand ts = .ok (x, us)) :
    readMore operand (tries + 1) (.operator op :: ts) =
      (readMore operand tries us).map fun more => ((op, x) :: more.1, more.2) := by
  rw [readMore, found, ok_bind]
  dsimp only
  cases readMore operand tries us <;> rfl

theorem readMore_error (failed : operand ts = .error fault) :
    readMore operand (tries + 1) (.operator op :: ts) = .error fault := by
  rw [readMore, failed]
  rfl

theorem readClimbing_ok (tight : least ≤ op.precedence) (found : operand ts = .ok (x, us)) :
    readClimbing operand (tries + 1) least left (.operator op :: ts) =
      readClimbing operand tries (op.precedence + 1) x us >>= fun right =>
        readClimbing operand tries least (.binary op left right.1) right.2 := by
  rw [readClimbing, if_neg (Nat.not_lt_of_le tight), found]
  rfl

theorem readClimbing_error (tight : least ≤ op.precedence) (failed : operand ts = .error fault) :
    readClimbing operand (tries + 1) least left (.operator op :: ts) = .error fault := by
  rw [readClimbing, if_neg (Nat.not_lt_of_le tight), failed]
  rfl

/-- Climbing stops in front of an operator that is too loose, and where the chain is over. -/
theorem readClimbing_stops (stops : ∀ op, ts.head? = some (.operator op) → op.precedence < least) :
    readClimbing operand tries least left ts = .ok (left, ts) := by
  unfold readClimbing
  split
  · rw [if_pos (stops _ rfl)]
    rfl
  · rfl

end Step

/-! ### The chain and its rest -/

section Shorter

-- No operand leaves more tokens than there are, so no reader of a chain is short of tries.
variable (shorter : ∀ {ts x rest}, operand ts = .ok (x, rest) → rest.length ≤ ts.length)

include shorter

theorem readMore_eq_readRest {tries : Nat} (enough : ts.length ≤ tries) :
    readMore operand tries ts = readRest operand ts := by
  induction tries using Nat.strongRecOn generalizing ts with
  | ind tries ih =>
      rcases operator_or_done ts with ⟨op, behind, rfl⟩ | noOperator
      · rw [List.length_cons] at enough
        obtain ⟨tries, rfl⟩ : ∃ n, tries = n + 1 := ⟨tries - 1, by omega⟩
        rw [readRest, List.length_cons]
        cases found : operand behind with
        | error fault => rw [readMore_error found, readMore_error found]
        | ok next =>
            have fewer := shorter found
            rw [readMore_ok found, readMore_ok found, ih tries (by omega) (by omega),
              ih behind.length (by omega) fewer]
      · rw [readRest, readMore_done noOperator, readMore_done noOperator]

theorem readRest_ok (found : operand ts = .ok (x, us)) :
    readRest operand (.operator op :: ts) =
      (readRest operand us).map fun more => ((op, x) :: more.1, more.2) := by
  rw [readRest, List.length_cons, readMore_ok found, readMore_eq_readRest shorter (shorter found)]

omit shorter in
theorem readRest_error (failed : operand ts = .error fault) :
    readRest operand (.operator op :: ts) = .error fault :=
  readMore_error failed

end Shorter

/-! ### What climbing does -/

/-- What climbing has done when it goes from the tokens `ts` to the tokens `ts'`: the operators
`taken` are off the front of the chain, and `e` groups them together with what was on the left. -/
structure Climbed (operand : OperandReader) (least : Nat) (left : Expr) (ts : List Token)
    (taken : List (BinaryOp × Expr)) (e : Expr) (ts' : List Token) : Prop where
  length_le : ts'.length ≤ ts.length
  stops : ∀ op, ts'.head? = some (.operator op) → op.precedence < least
  rest : readRest operand ts =
    (readRest operand ts').map fun more => (taken ++ more.1, more.2)
  /-- The next operator has to be as loose as the tree on its left. -/
  groups : ∀ {level : Nat} {first : Expr} {front : List (BinaryOp × Expr)}, least ≤ level →
    (∀ op, ts.head? = some (.operator op) → op.precedence ≤ level) →
      Expr.Groups level first front left → Expr.Groups least first (front ++ taken) e

/-- Nothing is taken where climbing stops. -/
theorem Climbed.refl (stops : ∀ op, ts.head? = some (.operator op) → op.precedence < least) :
    Climbed operand least left ts [] left ts where
  length_le := Nat.le_refl _
  stops := stops
  rest := by cases readRest operand ts <;> rfl
  groups enough _ grouped := by
    rw [List.append_nil]
    exact grouped.of_le enough

/-- An operator takes what is tighter as its right side, and what follows goes on from there. -/
theorem Climbed.operator
    (shorter : ∀ {ts x rest}, operand ts = .ok (x, rest) → rest.length ≤ ts.length)
    (tight : least ≤ op.precedence) (found : operand ts = .ok (x, us))
    (behind : Climbed operand (op.precedence + 1) x us taken right us')
    (more : Climbed operand least (.binary op left right) us' taken' e ts') :
    Climbed operand least left (.operator op :: ts) ((op, x) :: (taken ++ taken')) e ts' where
  length_le := calc
    ts'.length ≤ us'.length := more.length_le
    _ ≤ us.length := behind.length_le
    _ ≤ ts.length := shorter found
    _ ≤ (Token.operator op :: ts).length := Nat.le_succ _
  stops := more.stops
  rest := by
    rw [readRest_ok shorter found, behind.rest, more.rest]
    cases readRest operand ts' with
    | error fault => rfl
    | ok found => simp [Except.map]
  groups {level first front} _ next grouped := by
    -- The right side is a chain of its own, whose operators are tighter.
    have side : Expr.Groups (op.precedence + 1) x taken right :=
      behind.groups (Nat.succ_le_succ op.precedence_le_five)
        (fun op _ => Nat.le_succ_of_le op.precedence_le_five) (.single 6 x)
    have joined :
        Expr.Groups op.precedence first (front ++ (op, x) :: taken) (.binary op left right) :=
      .binary (grouped.of_le (next op rfl)) side
    have looser (op' : BinaryOp) (head : us'.head? = some (.operator op')) :
        op'.precedence ≤ op.precedence := Nat.lt_succ_iff.mp (behind.stops op' head)
    have whole := more.groups tight looser joined
    rw [List.append_assoc, List.cons_append] at whole
    exact whole

/-- Climbing fails where reading the chain does, or it takes some operators and stops. -/
theorem exists_climbed
    (shorter : ∀ {ts x rest}, operand ts = .ok (x, rest) → rest.length ≤ ts.length) {tries : Nat}
    (enough : ts.length ≤ tries) (least : Nat) (left : Expr) :
    (∃ fault, readRest operand ts = .error fault ∧
      readClimbing operand tries least left ts = .error fault) ∨
    ∃ taken e ts', readClimbing operand tries least left ts = .ok (e, ts') ∧
      Climbed operand least left ts taken e ts' := by
  induction tries generalizing ts least left with
  | zero =>
      have stops (op : BinaryOp) (head : ts.head? = some (.operator op)) :
          op.precedence < least := by
        rw [List.length_eq_zero_iff.mp (Nat.le_zero.mp enough)] at head
        cases head
      exact .inr ⟨[], left, ts, readClimbing_stops stops, .refl stops⟩
  | succ tries ih =>
      by_cases stops : ∀ op, ts.head? = some (.operator op) → op.precedence < least
      · exact .inr ⟨[], left, ts, readClimbing_stops stops, .refl stops⟩
      · obtain ⟨op, taken⟩ := Classical.not_forall.mp stops
        obtain ⟨head, tight⟩ := Classical.not_imp.mp taken
        have tight : least ≤ op.precedence := Nat.le_of_not_lt tight
        obtain ⟨behind, rfl⟩ := List.head?_eq_some_iff.mp head
        cases found : operand behind with
        | error fault => exact .inl ⟨fault, readRest_error found, readClimbing_error tight found⟩
        | ok next =>
            obtain ⟨x, us⟩ := next
            have fewer : us.length ≤ tries :=
              Nat.le_trans (shorter found) (Nat.le_of_succ_le_succ enough)
            rw [readRest_ok shorter found, readClimbing_ok tight found]
            rcases ih fewer (op.precedence + 1) x with ⟨fault, failed, failed'⟩ |
              ⟨taken, right, us', read, side⟩
            · rw [failed, failed']
              exact .inl ⟨fault, rfl, rfl⟩
            · rw [read, ok_bind, side.rest]
              rcases ih (Nat.le_trans side.length_le fewer) least (.binary op left right) with
                ⟨fault, failed, failed'⟩ | ⟨taken', e, ts', read', more⟩
              · rw [failed, failed']
                exact .inl ⟨fault, rfl, rfl⟩
              · exact .inr ⟨_, e, ts', read', .operator shorter tight found side more⟩

/-- Reading a chain and grouping it afterwards is climbing from the loosest level, fault by fault
and token by token. -/
theorem readChain_eq_climbing (depth : Nat) (ts : List Token) :
    readChain (readOperand depth) ts = (do
      let (first, ts) ← readOperand depth ts
      readClimbing (readOperand depth) ts.length 0 first ts) := by
  have shorter {ts rest : List Token} {x : Expr} (found : readOperand depth ts = .ok (x, rest)) :
      rest.length ≤ ts.length := Nat.le_of_succ_le (derives_of_readOperand found).length_le
  rw [readChain]
  cases readOperand depth ts with
  | error fault => rfl
  | ok next =>
      obtain ⟨first, ts⟩ := next
      show (readRest (readOperand depth) ts >>= fun found =>
          pure (Expr.ofChain first found.1, found.2)) =
        readClimbing (readOperand depth) ts.length 0 first ts
      rcases exists_climbed shorter (Nat.le_refl ts.length) 0 first with ⟨fault, failed, failed'⟩ |
        ⟨taken, e, ts', read, climbed⟩
      · rw [failed, failed']
        rfl
      · have none : readRest (readOperand depth) ts' = .ok ([], ts') :=
          readMore_done fun op head => Nat.not_lt_zero _ (climbed.stops op head)
        have grouped : Expr.Groups 0 first taken e :=
          climbed.groups (Nat.zero_le 5) (fun op _ => op.precedence_le_five) (.single 5 first)
        have all : readRest (readOperand depth) ts = .ok (taken, ts') := by
          rw [climbed.rest, none]
          simp [Except.map]
        rw [read, all, ← grouped.ofChain_eq]
        rfl

end Formula

end Spreadsheet
