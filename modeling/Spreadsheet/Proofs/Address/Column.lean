import Mathlib.Data.List.Induction
import Mathlib.Data.List.Shortlex
import Mathlib.Data.Nat.Digits.Defs
import Spreadsheet.Proofs.Reference.Numerals

/-!
# The letters of columns as a bijective numeral system

Letters are written from the back, a digit less than the remainder at a time, and read from the
front. Their positional value, with `A` to `Z` worth 1 to 26, ties the two together: every column
has the letters whose value is one more than its index, every word of letters is that of exactly
one column, and a longer word, or one that is later in the dictionary among those of its length,
is that of a later column.

Reading compares the value with the grid behind every letter. A prefix is worth no more than the
whole word, so this refuses exactly the words that are worth too much, and since no value grows
far beyond the grid before it is compared, none leaves the words of 32 bits.
-/

namespace Spreadsheet.Column

variable {c : Char} {cs whole : List Char} {sum m n col : Nat}

/-- The positional value of letters in either case: they are digits of the base 26, worth 1 to 26,
and the last one counts least. -/
def worth (cs : List Char) : Nat :=
  Nat.ofDigits 26 ((Text.upper cs).reverse.map fun c => c.toNat - 'A'.toNat + 1)

/-! ### Values -/

theorem value_append_singleton (cs : List Char) (c : Char) :
    value (cs ++ [c]) = value cs * 26 + digit c := by
  rw [value, List.foldl_append]
  rfl

/-- Adding up from the front gives the positional value. -/
theorem worth_eq_value (letters : ∀ c ∈ cs, c.isAlpha) : worth cs = value cs := by
  induction cs using List.reverseRecOn with
  | nil => rfl
  | append_singleton cs c ih =>
      have front : worth cs = value cs := ih fun d hd => letters d (by simp [hd])
      have last : c.toUpper.toNat - 'A'.toNat + 1 = digit c := by
        have positive := (letter_digit (letters c (by simp))).1
        have A : 'A'.toNat = 65 := rfl
        rw [digit] at positive ⊢
        omega
      have step : worth (cs ++ [c]) = c.toUpper.toNat - 'A'.toNat + 1 + 26 * worth cs := by
        simp [worth, Text.upper, Nat.ofDigits_cons]
      rw [step, last, front, value_append_singleton]
      omega

/-- A numeral is worth its number. -/
theorem value_numeral (n : Nat) : value (numeral n) = n := by
  induction n using numeral.induct with
  | case1 => rw [numeral, value, List.foldl_nil]
  | case2 n ih =>
      have last : digit (letter (n % 26)) = n % 26 + 1 := digit_letter (Nat.mod_lt n (by decide))
      rw [numeral, value_append_singleton, ih, last]
      omega

theorem numeral_injective : Function.Injective numeral :=
  Function.LeftInverse.injective value_numeral

/-- Different columns have different letters. -/
theorem letters_injective : Function.Injective letters := by
  intro a b same
  exact Nat.succ_injective (numeral_injective same)

/-! ### Upper case -/

theorem isUpper_letter (h : n < 26) : (letter n).isUpper := by
  revert n
  decide

theorem isUpper_of_mem_numeral : ∀ c ∈ numeral n, c.isUpper := by
  induction n using numeral.induct with
  | case1 => simp [numeral]
  | case2 n ih =>
      intro c hc
      rw [numeral, List.mem_append, List.mem_singleton] at hc
      rcases hc with hc | rfl
      · exact ih c hc
      · exact isUpper_letter (Nat.mod_lt n (by decide))

theorem isAlpha_of_isUpper (h : c.isUpper) : c.isAlpha :=
  Bool.or_eq_true_iff.mpr (.inl h)

theorem toUpper_of_isUpper (h : c.isUpper) : c.toUpper = c := by
  have bound : c.val.toNat ≤ 90 := UInt32.le_iff_toNat_le.mp (of_decide_eq_true h).2
  delta Char.toUpper
  split
  · next lower =>
      have above : 97 ≤ c.val.toNat := UInt32.le_iff_toNat_le.mp lower.1
      omega
  · rfl

/-- Upper case letters are their own upper case. -/
theorem upper_eq_self (upper : ∀ c ∈ cs, c.isUpper) : Text.upper cs = cs := by
  rw [Text.upper, List.map_congr_left fun c hc => toUpper_of_isUpper (upper c hc), List.map_id']

/-! ### Order -/

/-- The order of letters. -/
def Earlier (c d : Char) : Prop :=
  c.toNat < d.toNat

theorem earlier_letter {i j : Nat} (less : i < j) (small : j < 26) :
    Earlier (letter i) (letter j) := by
  have all : ∀ j < 26, ∀ i < j, (letter i).toNat < (letter j).toNat := by decide
  exact all j small i less

/-- The first difference between words of one length decides, whatever follows them. -/
theorem lex_append {r : Char → Char → Prop} {s t u v : List Char} (lex : List.Lex r s t)
    (same : s.length = t.length) : List.Lex r (s ++ u) (t ++ v) := by
  induction lex with
  | nil => cases same
  | cons _ ih => exact .cons (ih (Nat.succ.inj same))
  | rel less => exact .rel less

/-- One more letter at the end of both words keeps their order. -/
theorem shortlex_append_singleton {r : Char → Char → Prop} {s t : List Char} {c d : Char}
    (h : List.Shortlex r s t) : List.Shortlex r (s ++ [c]) (t ++ [d]) := by
  rcases List.shortlex_def.mp h with shorter | ⟨same, lex⟩
  · exact .of_length_lt (by simpa using shorter)
  · exact .of_lex (by simpa using same) (lex_append lex same)

/-- A smaller number has a shorter numeral, or one of the same length that comes earlier in the
dictionary. -/
theorem shortlex_numeral (less : m < n) : List.Shortlex Earlier (numeral m) (numeral n) := by
  induction n using numeral.induct generalizing m with
  | case1 => exact absurd less (Nat.not_lt_zero m)
  | case2 n ih =>
      cases m with
      | zero => exact .of_length_lt (by simp [numeral])
      | succ m =>
          have order : m / 26 < n / 26 ∨ m / 26 = n / 26 ∧ m % 26 < n % 26 := by omega
          rw [numeral, numeral]
          rcases order with quotient | ⟨quotient, remainder⟩
          · exact shortlex_append_singleton (ih quotient)
          · have last : Earlier (letter (m % 26)) (letter (n % 26)) :=
              earlier_letter remainder (Nat.mod_lt n (by decide))
            rw [quotient]
            exact ((List.shortlex_singleton_iff _ _).mpr last).append_left _

instance : Std.Asymm Earlier :=
  ⟨fun _ _ => Nat.lt_asymm⟩

/-- The order of columns is that of their letters. -/
theorem letters_lt_iff {a b : Nat} : a < b ↔ List.Shortlex Earlier (letters a) (letters b) := by
  constructor
  · exact fun less => shortlex_numeral (Nat.succ_lt_succ less)
  · intro earlier
    rcases Nat.lt_trichotomy a b with less | rfl | more
    · exact less
    · exact absurd earlier (Std.Asymm.asymm _ _ earlier)
    · exact absurd earlier (Std.Asymm.asymm _ _ (shortlex_numeral (Nat.succ_lt_succ more)))

/-! ### Reading -/

/-- Reading a word goes through what reading its front has come to. -/
theorem read_append (front cs : List Char) :
    read whole sum (front ++ cs) = (read whole sum front).bind fun n => read whole n cs := by
  induction front generalizing sum with
  | nil => rfl
  | cons c front ih =>
      rw [List.cons_append, read, read]
      split
      · dsimp only
        split
        · exact ih
        · rfl
      · rfl

/-- Letters that are worth more than the grid has columns are refused. -/
theorem read_eq_error (letters : ∀ c ∈ cs, c.isAlpha) (start : sum ≤ maxCols)
    (large : maxCols < cs.foldl (fun sum c => sum * 26 + digit c) sum) :
    read whole sum cs = .error (.malformed (.columnPastGrid (String.ofList whole))) := by
  induction cs generalizing sum with
  | nil => exact absurd large (Nat.not_lt.mpr start)
  | cons c cs ih =>
      rw [read, if_pos (letters c List.mem_cons_self)]
      dsimp only
      split
      · next small => exact ih (fun d hd => letters d (List.mem_cons_of_mem c hd)) small large
      · rfl

theorem ofLetters_eq_error (letters : ∀ c ∈ cs, c.isAlpha) (large : maxCols < worth cs) :
    ofLetters cs = .error (.malformed (.columnPastGrid (String.ofList cs))) := by
  rw [worth_eq_value letters] at large
  have nonempty : cs ≠ [] := by
    rintro rfl
    cases large
  rw [ofLetters, if_neg (by simpa using nonempty), read_eq_error letters (Nat.zero_le _) large]
  rfl

/-- Words that spell a column of the grid are read as this column. -/
theorem ofLetters_eq_ok_iff_letters (alpha : ∀ c ∈ cs, c.isAlpha) :
    ofLetters cs = .ok col ↔ letters col = Text.upper cs ∧ worth cs ≤ maxCols := by
  have written : numeral (worth cs) = Text.upper cs := by
    rw [worth_eq_value alpha, numeral_value alpha]
  rw [ofLetters_eq_ok_iff, ← worth_eq_value alpha, ← written]
  constructor
  · rintro ⟨-, -, value, small⟩
    rw [value]
    exact ⟨rfl, small⟩
  · rintro ⟨same, small⟩
    have value : col + 1 = worth cs := numeral_injective same
    refine ⟨?_, alpha, value.symm, by omega⟩
    rintro rfl
    cases value

/-- What is compared with the grid behind a letter is a number of 32 bits. -/
theorem next_lt_size (letter : c.isAlpha) (reached : read whole 0 cs = .ok sum) :
    sum * 26 + digit c < UInt32.size := by
  have small : sum ≤ maxCols := read_le_maxCols (Nat.zero_le _) reached
  have last := (letter_digit letter).2.1
  have bound : maxCols * 26 + 26 < UInt32.size := by decide
  omega

/-- The word of upper case letters that is worth one more than a column is the column's. -/
theorem letters_eq_iff (upper : ∀ c ∈ cs, c.isUpper) : letters col = cs ↔ worth cs = col + 1 := by
  have alpha : ∀ c ∈ cs, c.isAlpha := fun c hc => isAlpha_of_isUpper (upper c hc)
  have written : numeral (worth cs) = cs := by
    rw [worth_eq_value alpha, numeral_value alpha, upper_eq_self upper]
  constructor
  · intro same
    exact numeral_injective (written.trans same.symm)
  · intro value
    rw [letters, ← value, written]

/-- The letters of columns are their bijective numerals in the base 26. They are a word of upper case
letters, worth one more than the column, and different for different columns; columns are in the
order of their letters, shorter words first and words of one length as in a dictionary. Every word
that is worth at most as much as there are 32-bit numbers is that of exactly one such number.

Letters in either case are read as the column that they spell if they are worth at most as much as
the grid has columns, and as no column of the grid otherwise. All that is computed on the way, up to
the comparison that ends it, fits into 32 bits. -/
theorem letters_bijective :
    (∀ col, letters col ≠ [] ∧ (∀ c ∈ letters col, c.isUpper) ∧ worth (letters col) = col + 1) ∧
    Function.Injective letters ∧
    (∀ a b, a < b ↔ List.Shortlex Earlier (letters a) (letters b)) ∧
    (∀ word : List Char, word ≠ [] → (∀ c ∈ word, c.isUpper) → worth word ≤ UInt32.size →
      ∃! col : UInt32, letters col.toNat = word) ∧
    (∀ word : List Char, (∀ c ∈ word, c.isAlpha) →
      (∀ col, ofLetters word = .ok col ↔ letters col = Text.upper word ∧ worth word ≤ maxCols) ∧
      (maxCols < worth word →
        ofLetters word = .error (.malformed (.columnPastGrid (String.ofList word)))) ∧
      ∀ front c rest sum, word = front ++ c :: rest → read word 0 front = .ok sum →
        read word 0 word = read word sum (c :: rest) ∧ sum * 26 + digit c < UInt32.size) := by
  refine ⟨?_, letters_injective, fun a b => letters_lt_iff, ?_, ?_⟩
  · intro col
    have upper : ∀ c ∈ letters col, c.isUpper := isUpper_of_mem_numeral
    exact ⟨letters_ne_nil col, upper, (letters_eq_iff upper).mp rfl⟩
  · intro word nonempty upper small
    have alpha : ∀ c ∈ word, c.isAlpha := fun c hc => isAlpha_of_isUpper (upper c hc)
    have positive : 0 < worth word := by
      rw [worth_eq_value alpha]
      refine Nat.pos_of_ne_zero fun zero => nonempty ?_
      rw [← upper_eq_self upper, ← numeral_value alpha, zero, numeral]
    have fits : (UInt32.ofNat (worth word - 1)).toNat = worth word - 1 :=
      UInt32.toNat_ofNat_of_lt' (by omega)
    refine ⟨UInt32.ofNat (worth word - 1), (letters_eq_iff upper).mpr (by omega), ?_⟩
    intro col same
    have value : worth word = col.toNat + 1 := (letters_eq_iff upper).mp same
    exact UInt32.toNat_inj.mp (by omega)
  · intro word alpha
    refine ⟨fun col => ofLetters_eq_ok_iff_letters alpha, ofLetters_eq_error alpha, ?_⟩
    intro front c rest sum split reached
    have passes : read word 0 (front ++ c :: rest) = read word sum (c :: rest) := by
      rw [read_append, reached]
      rfl
    rw [← split] at passes
    exact ⟨passes, next_lt_size (alpha c (by simp [split])) reached⟩

/-- The letters that are worth as much as there are 32-bit numbers are those of the last of them. The
last column of the grid is read in either case; the word behind it is refused, after its first two
letters have come to 630. -/
theorem letters_bijective_brink :
    (∃! col : UInt32, letters col.toNat = ['M', 'W', 'L', 'Q', 'K', 'W', 'V']) ∧
    worth (letters 4294967295) = UInt32.size ∧
    ofLetters ['x', 'f', 'D'] = .ok 16383 ∧
    ofLetters ['X', 'F', 'E'] = .error (.malformed (.columnPastGrid "XFE")) ∧
    read ['X', 'F', 'E'] 0 ['X', 'F', 'E'] = read ['X', 'F', 'E'] 630 ['E'] ∧
    630 * 26 + digit 'E' < UInt32.size := by
  obtain ⟨numerals, -, -, words, readings⟩ := letters_bijective
  obtain ⟨grid, -⟩ := readings ['x', 'f', 'D'] (by simp)
  obtain ⟨-, past, steps⟩ := readings ['X', 'F', 'E'] (by simp)
  have last : ofLetters ['x', 'f', 'D'] = .ok 16383 :=
    (grid 16383).mpr ⟨(letters_eq_iff (by simp [Text.upper])).mpr (by decide), by decide⟩
  exact ⟨words _ (by simp) (by simp) (by decide), (numerals 4294967295).2.2, last,
    past (by decide), steps ['X', 'F'] 'E' [] 630 rfl (by decide)⟩

end Spreadsheet.Column
