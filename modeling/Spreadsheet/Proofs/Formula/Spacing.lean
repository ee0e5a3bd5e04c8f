import Spreadsheet.Formula.Parse
import Spreadsheet.Proofs.Formula.Scanning

/-!
# Blanks between tokens

A token ends in front of a blank as it ends in front of the token behind it: no token goes on with
a blank, and what follows a token is not looked at further than to see where the token ends. The
exception is a function's name, which is told from a reference by the parenthesis that follows it at
once. So blanks may be put in behind any other token, and the formula reads as before.
-/

namespace Spreadsheet

open Token

/-- A token that is no function's name is read in front of blanks as in front of what they stand
before. -/
theorem Lexeme.next_blanks_append {t : Token} {l rest blanks : List Char} (lexeme : Lexeme t l rest)
    (noName : ∀ name, t ≠ .function name) (blank : ∀ c ∈ blanks, Text.isBlank c) :
    Token.next (l ++ (blanks ++ rest)) = (t, blanks ++ rest) := by
  cases blanks with
  | nil => exact lexeme.next _ (.refl rest)
  | cons b blanks => exact lexeme.apart noName _ (.of_blank (blank b List.mem_cons_self) _ _)

namespace Formula

variable {cs blanks : List Char} {n : Nat}

/-- Behind whole tokens, the last of which is no function's name, blanks change nothing. The induction
is on the tokens in front; what they are cannot depend on a change further behind, since at least one
character stands between. -/
theorem exists_front (whole : ∀ m ≤ n, (tokenAfter cs m).isEnd = false)
    (noName : ∀ name, tokenAfter cs n ≠ .function name) :
    ∃ front, front ≠ [] ∧ cs = front ++ restAfter cs (n + 1) ∧
      ∀ blanks, (∀ c ∈ blanks, Text.isBlank c) →
        tokens (front ++ (blanks ++ restAfter cs (n + 1))) = tokens cs := by
  induction n generalizing cs with
  | zero =>
      have live := whole 0 (Nat.le_refl 0)
      obtain ⟨lead, l, text, space, lexeme⟩ := exists_lexeme (next_restAfter cs 0) live
      have text : cs = (lead ++ l) ++ restAfter cs 1 := by
        rw [List.append_assoc]
        exact text
      refine ⟨lead ++ l, ?_, text, fun blanks blank => ?_⟩
      · intro none
        rw [none, List.nil_append] at text
        exact absurd (congrArg List.length text) (length_restAfter_lt live).ne'
      · have first : tokens cs = tokenAfter cs 0 :: tokens (restAfter cs 1) :=
          tokens_live (next_restAfter cs 0) live
        rw [first, List.append_assoc, tokens_blanks_append space,
          tokens_live (lexeme.next_blanks_append noName blank) live, tokens_blanks_append blank]
  | succ n ih =>
      have live := whole 0 (Nat.zero_le _)
      obtain ⟨lead, l, text, space, lexeme⟩ := exists_lexeme (next_restAfter cs 0) live
      have text : cs = lead ++ (l ++ restAfter cs 1) := text
      have whole' : ∀ m ≤ n, (tokenAfter (restAfter cs 1) m).isEnd = false := fun m hm =>
        tokenAfter_succ cs m ▸ whole (m + 1) (Nat.succ_le_succ hm)
      have noName' : ∀ name, tokenAfter (restAfter cs 1) n ≠ .function name := fun name =>
        tokenAfter_succ cs n ▸ noName name
      obtain ⟨front, nonempty, behind, spaced⟩ := ih whole' noName'
      rw [← restAfter_succ] at behind spaced
      refine ⟨lead ++ (l ++ front), by simp [nonempty], ?_, fun blanks blank => ?_⟩
      · rw [List.append_assoc, List.append_assoc, ← behind]
        exact text
      · have start (rest : List Char) : (restAfter cs 1).head? = (front ++ rest).head? := by
          rw [behind, List.head?_append_of_ne_nil _ nonempty, List.head?_append_of_ne_nil _ nonempty]
        have first : tokens cs = tokenAfter cs 0 :: tokens (restAfter cs 1) :=
          tokens_live (next_restAfter cs 0) live
        rw [List.append_assoc, List.append_assoc, tokens_blanks_append space,
          tokens_live (lexeme.next _ (.of_head_eq (start _))) live, spaced blanks blank, first]

/-- What stands in front of the content of a formula stands in front of any text that begins alike. -/
theorem exists_lead (cs : List Char) : ∃ lead, cs = lead ++ content cs ∧
    ∀ ds, ds.head? = (content cs).head? → content (lead ++ ds) = ds := by
  obtain ⟨front, blanks, text | ⟨text, head⟩⟩ := exists_content cs
  · refine ⟨front ++ ['='], by rw [List.append_assoc]; exact text, fun ds _ => ?_⟩
    rw [List.append_assoc]
    exact content_equals blanks
  · exact ⟨front, text, fun ds start => content_other blanks (start ▸ head)⟩

/-! ### Places in a formula -/

/-- The number of characters of a formula in front of the place that is reached after so many tokens:
what stands in front of its content, and what the tokens have taken of it. -/
def place (cs : List Char) (n : Nat) : Nat :=
  (cs.length - (content cs).length) + ((body cs).length - (restAfter (body cs) n).length)

/-- A formula with a text put in at such a place. -/
def inserted (cs : List Char) (n : Nat) (added : List Char) : List Char :=
  cs.take (place cs n) ++ (added ++ cs.drop (place cs n))

/-- In front of a place stand what leads up to the content and what the tokens have taken, behind it
what they have left and the blanks at the end. -/
theorem exists_parts (cs : List Char) (n : Nat) : ∃ lead front back,
    (∀ c ∈ back, Text.isBlank c) ∧ body cs = front ++ restAfter (body cs) n ∧
    cs.take (place cs n) = lead ++ front ∧
    cs.drop (place cs n) = restAfter (body cs) n ++ back ∧
    ∀ ds, ds.head? = (body cs ++ back).head? → content (lead ++ ds) = ds := by
  obtain ⟨back, space, inside⟩ := exists_content_eq cs
  obtain ⟨lead, whole, starts⟩ := exists_lead cs
  obtain ⟨front, taken⟩ := restAfter_suffix (body cs) n
  rw [inside] at starts
  refine ⟨lead, front, back, space, taken.symm, ?_⟩
  have size : place cs n = (lead ++ front).length := by
    have sizes := congrArg List.length whole
    have sizes' := congrArg List.length taken
    rw [List.length_append] at sizes sizes' ⊢
    rw [place]
    omega
  have text : cs = (lead ++ front) ++ (restAfter (body cs) n ++ back) := by
    rw [List.append_assoc, ← List.append_assoc front, taken, ← inside]
    exact whole
  generalize restAfter (body cs) n ++ back = rest at *
  rw [size]
  subst text
  exact ⟨List.take_left, List.drop_left, starts⟩

/-- Blanks behind the end of the stream are trimmed. -/
theorem tokens_inserted_of_isEnd {m : Nat} (ends : (tokenAfter (body cs) m).isEnd) (later : m < n)
    (blank : ∀ c ∈ blanks, Text.isBlank c) :
    tokens (body (inserted cs n blanks)) = tokens (body cs) := by
  obtain ⟨lead, front, back, space, -, -, behind, -⟩ := exists_parts cs n
  rw [restAfter_of_isEnd ends later, List.nil_append] at behind
  have blank' : ∀ c ∈ blanks ++ back, Text.isBlank c :=
    List.forall_mem_append.mpr ⟨blank, space⟩
  have same : Text.trim (inserted cs n blanks) = Text.trim cs := by
    calc Text.trim (inserted cs n blanks)
        = Text.trim (cs.take (place cs n)) := by
          rw [inserted, behind, Text.trim_append_blanks blank']
      _ = Text.trim (cs.take (place cs n) ++ cs.drop (place cs n)) := by
          rw [behind, Text.trim_append_blanks space]
      _ = Text.trim cs := by rw [List.take_append_drop]
  rw [body, same, body]

/-- Blanks in front of the end of the stream are skipped. -/
theorem tokens_inserted (whole : ∀ m ≤ n, (tokenAfter (body cs) m).isEnd = false)
    (noName : ∀ name, tokenAfter (body cs) n ≠ .function name)
    (blank : ∀ c ∈ blanks, Text.isBlank c) :
    tokens (body (inserted cs (n + 1) blanks)) = tokens (body cs) := by
  obtain ⟨lead, front, back, space, taken, before, behind, starts⟩ := exists_parts cs (n + 1)
  obtain ⟨front', nonempty, taken', reads⟩ := exists_front whole noName
  have same : front' = front := List.append_cancel_right (taken'.symm.trans taken)
  subst same
  have start (ds : List Char) : (front' ++ ds).head? = (body cs ++ back).head? := by
    rw [taken, List.append_assoc, List.head?_append_of_ne_nil _ nonempty,
      List.head?_append_of_ne_nil _ nonempty]
  calc tokens (body (inserted cs (n + 1) blanks))
      = tokens (content (lead ++ (front' ++ (blanks ++ (restAfter (body cs) (n + 1) ++ back))))) := by
        rw [tokens_body, inserted, before, behind, List.append_assoc]
    _ = tokens ((front' ++ (blanks ++ restAfter (body cs) (n + 1))) ++ back) := by
        rw [starts _ (start _)]
        simp only [List.append_assoc]
    _ = tokens (front' ++ (blanks ++ restAfter (body cs) (n + 1))) := tokens_append_blanks space _
    _ = tokens (body cs) := reads blanks blank

/-- Blanks between tokens mean nothing. At the place of a formula that is reached after one or more
tokens, the last of which is no function's name, any blanks may be inserted: the stream of tokens stays
the same, and with it what the formula is read as. What stands behind the place is what the tokens have
left, and blanks at the end of the text. -/
theorem tokenize_insert_blanks (text : String) (n : Nat)
    (noName : ∀ name, tokenAfter (body text.toList) n ≠ .function name)
    (blanks : List Char) (blank : ∀ c ∈ blanks, Text.isBlank c) :
    let cs := text.toList
    let spaced := String.ofList
      (cs.take (place cs (n + 1)) ++ (blanks ++ cs.drop (place cs (n + 1))))
    (∃ back, (∀ c ∈ back, Text.isBlank c) ∧
      cs.drop (place cs (n + 1)) = restAfter (body cs) (n + 1) ++ back) ∧
    tokenize spaced = tokenize text ∧ parse spaced = parse text := by
  intro cs spaced
  have same : tokenize spaced = tokenize text := by
    rw [tokenize, tokenize, String.toList_ofList]
    by_cases whole : ∀ m ≤ n, (tokenAfter (body cs) m).isEnd = false
    · exact tokens_inserted whole noName blank
    · simp only [not_forall, Bool.not_eq_false] at whole
      obtain ⟨m, reached, ends⟩ := whole
      exact tokens_inserted_of_isEnd ends (Nat.lt_succ_of_le reached) blank
  obtain ⟨_, _, back, space, -, -, behind, -⟩ := exists_parts cs (n + 1)
  refine ⟨⟨back, space, behind⟩, same, ?_⟩
  rw [parse, same, parse]

/-- A formula with blanks around it, and an operator that another one could be made of. -/
theorem tokenize_insert_blanks_comparison :
    tokenize " =$A1<\u2003 .5 " = tokenize " =$A1<.5 " ∧
    parse " =$A1<\u2003 .5 " = parse " =$A1<.5 " := by
  have less : tokenAfter (body " =$A1<.5 ".toList) 1 = .operator .less := by decide
  have spaced := (tokenize_insert_blanks " =$A1<.5 " 1
    (fun name same => nomatch less.symm.trans same) ['\u2003', ' '] (by simp [Text.isBlank])).2
  exact spaced

end Formula

end Spreadsheet
