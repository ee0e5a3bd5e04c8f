import Mathlib.Data.List.Lex
import Mathlib.Tactic.SplitIfs
import Spreadsheet.Text.Blank

/-!
# The order of texts

Texts are compared character by character, and the entries of a map whose keys are texts are sorted
that way. Their bytes in UTF-8 are in the same order: where two characters first differ in a byte, the
later one has the greater byte, and the bytes of one are never just the beginning of the other's.
-/

namespace Spreadsheet.Text

variable {c d : Char} {s t : String}

/-- The bytes of a text in UTF-8. -/
def bytes (s : String) : List Nat :=
  s.toByteArray.data.toList.map UInt8.toNat

/-- Whether a text comes in front of another one in the order of their bytes. -/
def Precedes (s t : String) : Prop :=
  List.Lex (· < ·) (bytes s) (bytes t)

theorem Precedes.asymm (h : Precedes s t) : ¬ Precedes t s :=
  List.lex_asymm Nat.lt_asymm h

/-! ### Characters -/

/-- The bytes of a character in UTF-8. -/
def encoded (c : Char) : List Nat :=
  (String.utf8EncodeChar c).map UInt8.toNat

theorem bytes_eq_flatMap (s : String) : bytes s = s.toList.flatMap encoded := by
  rw [bytes, ← String.utf8Encode_toList, List.utf8Encode, List.data_toByteArray, List.map_flatMap]
  rfl

/-- A character takes one to four bytes; all but the first of them hold six bits each. -/
theorem encoded_eq (c : Char) : encoded c =
    if c.toNat ≤ 0x7f then [c.toNat]
    else if c.toNat ≤ 0x7ff then [c.toNat / 64 + 0xc0, c.toNat % 64 + 0x80]
    else if c.toNat ≤ 0xffff then
      [c.toNat / 4096 + 0xe0, c.toNat / 64 % 64 + 0x80, c.toNat % 64 + 0x80]
    else
      [c.toNat / 262144 + 0xf0, c.toNat / 4096 % 64 + 0x80, c.toNat / 64 % 64 + 0x80,
        c.toNat % 64 + 0x80] := by
  have scalar : c.toNat < 0x110000 := by
    rcases c.valid with low | high
    · exact Nat.lt_trans low (by decide)
    · exact high.2
  have value : c.val.toNat = c.toNat := rfl
  rw [encoded, String.utf8EncodeChar, value]
  split_ifs <;> simp <;> omega

/-- The bytes of a later character come later, whatever stands behind them. -/
theorem lex_encoded (earlier : c.toNat < d.toNat) (l l' : List Nat) :
    List.Lex (· < ·) (encoded c ++ l) (encoded d ++ l') := by
  rw [encoded_eq, encoded_eq]
  -- Encodings of one length differ in a digit of the base 64, others already in their first bytes.
  split_ifs <;> simp only [List.cons_append, List.nil_append, List.cons_lex_cons_iff] <;> omega

/-! ### Texts -/

/-- The first character in which two texts differ decides about their bytes. -/
theorem lex_flatMap_encoded {cs ds : List Char} (lex : List.Lex (·.toNat < ·.toNat) cs ds) :
    List.Lex (· < ·) (cs.flatMap encoded) (ds.flatMap encoded) := by
  induction lex with
  | nil =>
      rw [List.flatMap_nil, List.flatMap_cons, encoded_eq]
      split_ifs <;> exact .nil
  | cons _ ih =>
      rw [List.flatMap_cons, List.flatMap_cons]
      exact List.Lex.append_left _ ih _
  | rel earlier => exact lex_encoded earlier _ _

/-- The order in which a map keeps its keys is that of their bytes. -/
theorem precedes_of_compare (less : compare s t = .lt) : Precedes s t := by
  have lex : List.Lex (·.toNat < ·.toNat) s.toList t.toList := compareOfLessAndEq_eq_lt.mp less
  rw [Precedes, bytes_eq_flatMap, bytes_eq_flatMap]
  exact lex_flatMap_encoded lex

end Spreadsheet.Text
