import Spreadsheet.Formula.Parse

/-!
# Derivations of formulas

A derivation says what a reader finds in front of a stream of tokens and what it leaves, without
the bounds on tries and on depth that the readers carry. Every result of a reader has a
derivation, and with bounds of the length of the stream every derivation is the result of its
reader. A stream therefore spells a formula exactly if a chain can be derived from it and the
stream ends there.
-/

namespace Spreadsheet.Formula

/-- What is read off the front of a stream. -/
inductive Phrase where
  | operand (e : Expr)
  | chain (e : Expr)
  /-- Operators with an operand behind each. -/
  | more (found : List (BinaryOp × Expr))
  /-- Chains with commas between them. -/
  | arguments (args : List Expr)

/-- The least number of tokens of a phrase. -/
def Phrase.least : Phrase → Nat
  | more _ => 0
  | _ => 1

/-- `Derives ts phrase rest` says that the phrase stands in front of `rest` in `ts`. -/
inductive Derives : List Token → Phrase → List Token → Prop where
  | number (n : Float) (ts : List Token) : Derives (.number n :: ts) (.operand (.number n)) ts
  | text (s : String) (ts : List Token) : Derives (.text s :: ts) (.operand (.text s)) ts
  | boolean (b : Bool) (ts : List Token) : Derives (.boolean b :: ts) (.operand (.boolean b)) ts
  | lost (ts : List Token) : Derives (.lost :: ts) (.operand .lost) ts
  | lone {written : String} {r : Option Reference} {ts : List Token} :
    resolve written = .ok r → ts.head? ≠ some .colon →
      Derives (.reference written :: ts) (.operand (loneExpr r)) ts
  | range {first second : String} {a b : Option Reference} {ts : List Token} :
    resolve first = .ok a → resolve second = .ok b →
      Derives (.reference first :: .colon :: .reference second :: ts) (.operand (rangeExpr a b)) ts
  | emptyCall (name : String) (ts : List Token) :
    Derives (.function name :: .leftParen :: .rightParen :: ts) (.operand (.call name [])) ts
  | call {name : String} {args : List Expr} {ts rest : List Token} :
    ts.head? ≠ some .rightParen → Derives ts (.arguments args) (.rightParen :: rest) →
      Derives (.function name :: .leftParen :: ts) (.operand (.call name args)) rest
  | parens {e : Expr} {ts rest : List Token} : Derives ts (.chain e) (.rightParen :: rest) →
      Derives (.leftParen :: ts) (.operand e) rest
  | negate {e : Expr} {ts rest : List Token} : Derives ts (.operand e) rest →
      Derives (.operator .subtract :: ts) (.operand (.negate e)) rest
  | chain {first : Expr} {found : List (BinaryOp × Expr)} {ts ts' rest : List Token} :
    Derives ts (.operand first) ts' → Derives ts' (.more found) rest →
      Derives ts (.chain (Expr.ofChain first found)) rest
  | more {op : BinaryOp} {e : Expr} {found : List (BinaryOp × Expr)} {ts ts' rest : List Token} :
    Derives ts (.operand e) ts' → Derives ts' (.more found) rest →
      Derives (.operator op :: ts) (.more ((op, e) :: found)) rest
  | done {ts : List Token} : (∀ op, ts.head? ≠ some (.operator op)) → Derives ts (.more []) ts
  | last {e : Expr} {ts rest : List Token} : Derives ts (.chain e) rest →
      rest.head? ≠ some .comma → Derives ts (.arguments [e]) rest
  | comma {e : Expr} {args : List Expr} {ts ts' rest : List Token} :
    Derives ts (.chain e) (.comma :: ts') → Derives ts' (.arguments args) rest →
      Derives ts (.arguments (e :: args)) rest

/-- A derivation leaves fewer tokens, unless there was nothing to find. -/
theorem Derives.length_le {ts rest : List Token} {phrase : Phrase} (h : Derives ts phrase rest) :
    rest.length + phrase.least ≤ ts.length := by
  induction h with
  | number => exact Nat.le_refl _
  | text => exact Nat.le_refl _
  | boolean => exact Nat.le_refl _
  | lost => exact Nat.le_refl _
  | lone => exact Nat.le_refl _
  | range =>
      simp only [Phrase.least, List.length_cons]
      omega
  | emptyCall =>
      simp only [Phrase.least, List.length_cons]
      omega
  | call _ _ ih =>
      simp only [Phrase.least, List.length_cons] at ih ⊢
      omega
  | parens _ ih =>
      simp only [Phrase.least, List.length_cons] at ih ⊢
      omega
  | negate _ ih =>
      simp only [Phrase.least, List.length_cons] at ih ⊢
      omega
  | chain _ _ ih ih' =>
      simp only [Phrase.least] at ih ih' ⊢
      omega
  | more _ _ ih ih' =>
      simp only [Phrase.least, List.length_cons] at ih ih' ⊢
      omega
  | done => exact Nat.le_refl _
  | last _ _ ih => exact ih
  | comma _ _ ih ih' =>
      simp only [Phrase.least, List.length_cons] at ih ih' ⊢
      omega

/-! ### Readers find what can be derived -/

section Sound

variable {α β : Type} {ts rest : List Token}

theorem ok_bind (a : α) (next : α → Except ParseFault β) : (Except.ok a >>= next) = next a :=
  rfl

/-- A computation succeeds if its first step does and what follows the value of that step. -/
theorem bind_eq_ok {ε : Type} {x : Except ε α} {next : α → Except ε β} {b : β}
    (h : x >>= next = .ok b) : ∃ a, x = .ok a ∧ next a = .ok b := by
  cases x with
  | ok a => exact ⟨a, rfl, h⟩
  | error fault => cases h

theorem expect_eq_ok {wanted : Token} (h : expect wanted ts = .ok rest) : ts = wanted :: rest := by
  unfold expect at h
  split at h
  · cases h
  · split at h
    · next same =>
        cases h
        rw [same]
    · cases h

theorem expect_cons (wanted : Token) (ts : List Token) : expect wanted (wanted :: ts) = .ok ts :=
  if_pos rfl

theorem derives_of_readReference {written : String} {e : Expr}
    (h : readReference written ts = .ok (e, rest)) :
    Derives (.reference written :: ts) (.operand e) rest := by
  unfold readReference at h
  obtain ⟨first, hfirst, h⟩ := bind_eq_ok h
  split at h
  · obtain ⟨second, hsecond, h⟩ := bind_eq_ok h
    cases h
    exact .range hfirst hsecond
  · cases h
  · cases h
  · next noRange noColon noEnd =>
      cases h
      refine .lone hfirst ?_
      intro colon
      obtain ⟨behind, same⟩ := List.head?_eq_some_iff.mp colon
      cases behind with
      | nil => exact noEnd same
      | cons found behind => exact noColon found behind same

variable {operand : OperandReader}
  (sound : ∀ {ts e rest}, operand ts = .ok (e, rest) → Derives ts (.operand e) rest)

include sound

theorem derives_of_readMore {tries : Nat} {found : List (BinaryOp × Expr)}
    (enough : ts.length ≤ tries) (h : readMore operand tries ts = .ok (found, rest)) :
    Derives ts (.more found) rest := by
  induction tries generalizing ts found with
  | zero =>
      cases List.length_eq_zero_iff.mp (Nat.le_zero.mp enough)
      cases h
      exact .done (by simp)
  | succ tries ih =>
      unfold readMore at h
      split at h
      · next op behind same =>
          cases same
          obtain ⟨⟨e, ts'⟩, hoperand, h⟩ := bind_eq_ok h
          obtain ⟨⟨more, ts''⟩, hmore, h⟩ := bind_eq_ok h
          cases h
          have derived := sound hoperand
          have shorter := derived.length_le
          simp only [Phrase.least, List.length_cons] at shorter enough
          exact .more derived (ih (by omega) hmore)
      · next noOperator =>
          cases h
          refine .done fun op operator => ?_
          obtain ⟨behind, same⟩ := List.head?_eq_some_iff.mp operator
          exact noOperator tries op behind rfl same

theorem derives_of_readChain {e : Expr} (h : readChain operand ts = .ok (e, rest)) :
    Derives ts (.chain e) rest := by
  unfold readChain at h
  obtain ⟨⟨first, ts'⟩, hfirst, h⟩ := bind_eq_ok h
  obtain ⟨⟨more, ts''⟩, hmore, h⟩ := bind_eq_ok h
  cases h
  exact .chain (sound hfirst) (derives_of_readMore sound (Nat.le_refl _) hmore)

/-- Only at the end of the stream could a reader run out of tries. -/
theorem derives_of_readArguments {tries : Nat} {args : List Expr} (enough : ts.length ≤ tries)
    (nonempty : rest ≠ []) (h : readArguments operand tries ts = .ok (args, rest)) :
    Derives ts (.arguments args) rest := by
  induction tries generalizing ts args with
  | zero =>
      cases List.length_eq_zero_iff.mp (Nat.le_zero.mp enough)
      cases h
      exact absurd rfl nonempty
  | succ tries ih =>
      unfold readArguments at h
      obtain ⟨⟨first, ts'⟩, hfirst, h⟩ := bind_eq_ok h
      have derived := derives_of_readChain sound hfirst
      have shorter := derived.length_le
      simp only [Phrase.least] at shorter
      dsimp only at h
      split at h
      · next behind =>
          obtain ⟨⟨more, ts''⟩, hmore, h⟩ := bind_eq_ok h
          cases h
          simp only [List.length_cons] at shorter
          exact .comma derived (ih (by omega) hmore)
      · next noComma =>
          cases h
          exact .last derived fun comma => (List.head?_eq_some_iff.mp comma).elim noComma

theorem derives_of_readCall {name : String} {args : List Expr}
    (h : readCall operand ts = .ok (args, rest)) :
    Derives (.function name :: ts) (.operand (.call name args)) rest := by
  unfold readCall at h
  obtain ⟨behind, hopen, inside⟩ := bind_eq_ok h
  cases expect_eq_ok hopen
  split at inside
  · cases inside
    exact .emptyCall name rest
  · next noClose =>
      obtain ⟨⟨args, ts'⟩, hargs, inside⟩ := bind_eq_ok inside
      obtain ⟨ts'', hclose, inside⟩ := bind_eq_ok inside
      cases inside
      cases expect_eq_ok hclose
      refine .call ?_ (derives_of_readArguments sound (Nat.le_refl _) (by simp) hargs)
      exact fun close => (List.head?_eq_some_iff.mp close).elim noClose

end Sound

/-- What the reader of operands finds can be derived. -/
theorem derives_of_readOperand {depth : Nat} {ts rest : List Token} {e : Expr}
    (h : readOperand depth ts = .ok (e, rest)) : Derives ts (.operand e) rest := by
  induction depth generalizing ts rest e with
  | zero => cases h
  | succ depth ih =>
      cases ts with
      | nil => cases h
      | cons token ts =>
          unfold readOperand at h
          split at h
          · cases h
            exact .number _ _
          · cases h
            exact .text _ _
          · cases h
            exact .boolean _ _
          · cases h
            exact .lost _
          · exact derives_of_readReference h
          · obtain ⟨⟨args, ts'⟩, hargs, h⟩ := bind_eq_ok h
            cases h
            exact derives_of_readCall ih hargs
          · obtain ⟨⟨e, ts'⟩, hchain, h⟩ := bind_eq_ok h
            obtain ⟨ts'', hclose, h⟩ := bind_eq_ok h
            cases h
            cases expect_eq_ok hclose
            exact .parens (derives_of_readChain ih hchain)
          · obtain ⟨⟨e, ts'⟩, hoperand, h⟩ := bind_eq_ok h
            cases h
            exact .negate (ih hoperand)
          · cases h
          · cases h

/-! ### What can be derived is found -/

section Steps

variable {operand : OperandReader} {e : Expr} {ts' : List Token} {tries : Nat}

theorem readReference_lone {written : String} {r : Option Reference}
    (hresolve : resolve written = .ok r) (noColon : ts.head? ≠ some .colon) :
    readReference written ts = .ok (loneExpr r, ts) := by
  unfold readReference
  rw [hresolve, ok_bind]
  split
  · exact absurd rfl noColon
  · exact absurd rfl noColon
  · exact absurd rfl noColon
  · rfl

theorem readReference_range {first second : String} {a b : Option Reference}
    (hfirst : resolve first = .ok a) (hsecond : resolve second = .ok b) (ts : List Token) :
    readReference first (.colon :: .reference second :: ts) = .ok (rangeExpr a b, ts) := by
  unfold readReference
  rw [hfirst, ok_bind]
  dsimp only
  rw [hsecond, ok_bind]
  rfl

theorem readMore_done (noOperator : ∀ op, ts.head? ≠ some (.operator op)) :
    readMore operand tries ts = .ok ([], ts) := by
  unfold readMore
  split
  · exact absurd rfl (noOperator _)
  · rfl

theorem readMore_operator {op : BinaryOp} {found : List (BinaryOp × Expr)}
    (hoperand : operand ts = .ok (e, ts'))
    (hmore : readMore operand tries ts' = .ok (found, rest)) :
    readMore operand (tries + 1) (.operator op :: ts) = .ok ((op, e) :: found, rest) := by
  rw [readMore, hoperand]
  exact congrArg (· >>= fun x => pure ((op, e) :: x.1, x.2)) hmore

theorem readChain_eq_ok {found : List (BinaryOp × Expr)} (hoperand : operand ts = .ok (e, ts'))
    (hmore : readMore operand ts'.length ts' = .ok (found, rest)) :
    readChain operand ts = .ok (Expr.ofChain e found, rest) := by
  rw [readChain, hoperand]
  exact congrArg (· >>= fun x => pure (Expr.ofChain e x.1, x.2)) hmore

theorem readArguments_last (hchain : readChain operand ts = .ok (e, rest))
    (noComma : rest.head? ≠ some .comma) :
    readArguments operand (tries + 1) ts = .ok ([e], rest) := by
  rw [readArguments, hchain, ok_bind]
  dsimp only
  split
  · exact absurd rfl noComma
  · rfl

theorem readArguments_comma {args : List Expr}
    (hchain : readChain operand ts = .ok (e, .comma :: ts'))
    (hargs : readArguments operand tries ts' = .ok (args, rest)) :
    readArguments operand (tries + 1) ts = .ok (e :: args, rest) := by
  rw [readArguments, hchain]
  exact congrArg (· >>= fun x => pure (e :: x.1, x.2)) hargs

theorem readCall_arguments {args : List Expr} (noClose : ts.head? ≠ some .rightParen)
    (hargs : readArguments operand ts.length ts = .ok (args, .rightParen :: rest)) :
    readCall operand (.leftParen :: ts) = .ok (args, rest) := by
  unfold readCall
  rw [expect_cons, ok_bind]
  split
  · exact absurd rfl noClose
  · rw [hargs]
    exact congrArg (· >>= fun ts => pure (args, ts)) (expect_cons .rightParen rest)

end Steps

/-- Whether the reader of a phrase finds it, given bounds of the length of the stream. -/
def Phrase.IsRead (ts rest : List Token) : Phrase → Prop
  | operand e => ∀ depth, ts.length ≤ depth → readOperand depth ts = .ok (e, rest)
  | chain e => ∀ depth, ts.length ≤ depth → readChain (readOperand depth) ts = .ok (e, rest)
  | more found => ∀ depth tries, ts.length ≤ depth → ts.length ≤ tries →
    readMore (readOperand depth) tries ts = .ok (found, rest)
  | arguments args => ∀ depth tries, ts.length ≤ depth → ts.length ≤ tries →
    readArguments (readOperand depth) tries ts = .ok (args, rest)

/-- The bound on the depth of a stream that is not empty. -/
theorem exists_depth {depth : Nat} {t : Token} {ts : List Token}
    (h : (t :: ts).length ≤ depth) : ∃ d, depth = d + 1 ∧ ts.length ≤ d := by
  obtain ⟨d, rfl⟩ := Nat.exists_eq_add_of_lt (Nat.lt_of_lt_of_le (Nat.zero_lt_succ _) h)
  simp only [List.length_cons] at h
  exact ⟨d, by omega, by omega⟩

theorem Derives.isRead {ts rest : List Token} {phrase : Phrase} (h : Derives ts phrase rest) :
    phrase.IsRead ts rest := by
  induction h with
  | number n ts =>
      intro depth enough
      obtain ⟨d, rfl, -⟩ := exists_depth enough
      rfl
  | text s ts =>
      intro depth enough
      obtain ⟨d, rfl, -⟩ := exists_depth enough
      rfl
  | boolean b ts =>
      intro depth enough
      obtain ⟨d, rfl, -⟩ := exists_depth enough
      rfl
  | lost ts =>
      intro depth enough
      obtain ⟨d, rfl, -⟩ := exists_depth enough
      rfl
  | lone hresolve noColon =>
      intro depth enough
      obtain ⟨d, rfl, -⟩ := exists_depth enough
      exact readReference_lone hresolve noColon
  | range hfirst hsecond =>
      intro depth enough
      obtain ⟨d, rfl, -⟩ := exists_depth enough
      exact readReference_range hfirst hsecond _
  | emptyCall name ts =>
      intro depth enough
      obtain ⟨d, rfl, -⟩ := exists_depth enough
      rfl
  | @call name args ts rest noClose _ ih =>
      intro depth enough
      obtain ⟨d, rfl, bound⟩ := exists_depth enough
      simp only [List.length_cons] at bound
      have inside := readCall_arguments noClose (ih d ts.length (by omega) (Nat.le_refl _))
      rw [readOperand]
      exact congrArg (· >>= fun x => pure (Expr.call name x.1, x.2)) inside
  | @parens e ts rest _ ih =>
      intro depth enough
      obtain ⟨d, rfl, bound⟩ := exists_depth enough
      rw [readOperand, ih d bound]
      exact congrArg (· >>= fun ts => pure (e, ts)) (expect_cons .rightParen rest)
  | negate _ ih =>
      intro depth enough
      obtain ⟨d, rfl, bound⟩ := exists_depth enough
      rw [readOperand, ih d bound]
      rfl
  | @chain first found ts ts' rest h _ ih ih' =>
      intro depth enough
      have shorter := h.length_le
      simp only [Phrase.least] at shorter
      exact readChain_eq_ok (ih depth enough) (ih' depth ts'.length (by omega) (Nat.le_refl _))
  | @more op e found ts ts' rest h _ ih ih' =>
      intro depth tries enough fewer
      have shorter := h.length_le
      obtain ⟨n, rfl, bound⟩ := exists_depth fewer
      simp only [Phrase.least, List.length_cons] at shorter enough
      exact readMore_operator (ih depth (by omega)) (ih' depth n (by omega) (by omega))
  | done noOperator =>
      intro depth tries _ _
      exact readMore_done noOperator
  | @last e ts rest h noComma ih =>
      intro depth tries enough fewer
      have shorter := h.length_le
      simp only [Phrase.least] at shorter
      obtain ⟨n, rfl⟩ : ∃ n, tries = n + 1 := ⟨tries - 1, by omega⟩
      exact readArguments_last (ih depth enough) noComma
  | @comma e args ts ts' rest h _ ih ih' =>
      intro depth tries enough fewer
      have shorter := h.length_le
      simp only [Phrase.least, List.length_cons] at shorter
      obtain ⟨n, rfl⟩ : ∃ n, tries = n + 1 := ⟨tries - 1, by omega⟩
      exact readArguments_comma (ih depth enough) (ih' depth n (by omega) (by omega))

/-- A stream spells the formula that can be derived from it, if the stream ends behind it. -/
theorem ofTokens_eq_ok_iff {ts : List Token} {e : Expr} :
    ofTokens ts = .ok e ↔ ∃ rest, Derives ts (.chain e) rest ∧ ∀ t ∈ rest.head?, t = .finish := by
  constructor
  · intro h
    unfold ofTokens at h
    obtain ⟨⟨e', rest⟩, hchain, ending⟩ := bind_eq_ok h
    have derived := derives_of_readChain derives_of_readOperand hchain
    dsimp only at ending
    split at ending
    · cases ending
      exact ⟨[], derived, by simp⟩
    · next more =>
        cases ending
        exact ⟨.finish :: more, derived, by simp⟩
    · cases ending
  · rintro ⟨rest, derived, ends⟩
    unfold ofTokens
    rw [derived.isRead (ts.length + 1) (Nat.le_succ _), ok_bind]
    dsimp only
    split
    · rfl
    · rfl
    · next found more noFinish =>
        cases ends found rfl
        exact absurd rfl noFinish

/-! ### Streams of a text -/

/-- Whether a token ends a stream exactly at its last place. -/
inductive Stream : List Token → Prop where
  | ends {t : Token} : t.isEnd → Stream [t]
  | live {t : Token} {ts : List Token} : t.isEnd = false → Stream ts → Stream (t :: ts)

theorem stream_tokens (cs : List Char) : Stream (tokens cs) := by
  induction cs using tokens.induct with
  | case1 cs found ends =>
      rw [tokens, dif_pos ends]
      exact .ends ends
  | case2 cs found live ih =>
      rw [tokens, dif_neg live]
      exact .live (by simpa using live) ih

theorem Stream.tail {t : Token} {ts : List Token} (h : Stream (t :: ts)) (live : t.isEnd = false) :
    Stream ts := by
  cases h with
  | ends ends =>
      rw [live] at ends
      cases ends
  | live _ h => exact h

/-- Nothing is derived from the end of a stream. -/
theorem Derives.stream {ts rest : List Token} {phrase : Phrase} (h : Derives ts phrase rest)
    (start : Stream ts) : Stream rest := by
  induction h with
  | number => exact start.tail rfl
  | text => exact start.tail rfl
  | boolean => exact start.tail rfl
  | lost => exact start.tail rfl
  | lone => exact start.tail rfl
  | range => exact ((start.tail rfl).tail rfl).tail rfl
  | emptyCall => exact ((start.tail rfl).tail rfl).tail rfl
  | call _ _ ih => exact (ih ((start.tail rfl).tail rfl)).tail rfl
  | parens _ ih => exact (ih (start.tail rfl)).tail rfl
  | negate _ ih => exact ih (start.tail rfl)
  | chain _ _ ih ih' => exact ih' (ih start)
  | more _ _ ih ih' => exact ih' (ih (start.tail rfl))
  | done => exact start
  | last _ _ ih => exact ih start
  | comma _ _ ih ih' => exact ih' ((ih start).tail rfl)

/-- The tokens of a text spell the formula that can be derived from all of them but the end. -/
theorem ofTokens_tokens_eq_ok_iff {cs : List Char} {e : Expr} :
    ofTokens (tokens cs) = .ok e ↔ Derives (tokens cs) (.chain e) [.finish] := by
  rw [ofTokens_eq_ok_iff]
  constructor
  · rintro ⟨rest, derived, ends⟩
    have stream := derived.stream (stream_tokens cs)
    cases stream with
    | ends _ =>
        rw [ends _ rfl] at derived
        exact derived
    | live live _ =>
        rw [ends _ rfl] at live
        cases live
  · intro derived
    exact ⟨[.finish], derived, by simp⟩

end Spreadsheet.Formula
