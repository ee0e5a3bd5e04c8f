import Spreadsheet.Proofs.Reference.RoundTrip

/-!
# Columns and rows as numerals

Letters and digits are read from the front and written from the back, by loops that have nothing
in common. Both are tied here to what a numeral is worth: reading succeeds exactly on numerals
whose value lies on the grid, and writing a value gives its numeral back, with upper case letters
and without zeros in front.
-/

namespace Spreadsheet

namespace Column

variable {c : Char} {cs whole : List Char} {sum n col : Nat}

/-- What letters are worth as a numeral with the digits `A` to `Z` and no zero, in either case. -/
def value (cs : List Char) : Nat :=
  cs.foldl (fun sum c => sum * 26 + digit c) 0

/-- A letter in either case is written by its digit in upper case. -/
theorem letter_digit (h : c.isAlpha) :
    1 ≤ digit c ∧ digit c ≤ 26 ∧ letter (digit c - 1) = c.toUpper := by
  have ascii : ∀ n < 128, (Char.ofNat n).isAlpha →
      1 ≤ digit (Char.ofNat n) ∧ digit (Char.ofNat n) ≤ 26 ∧
        letter (digit (Char.ofNat n) - 1) = (Char.ofNat n).toUpper := by
    decide
  have bound : c.toNat < 128 := by
    rw [Text.isAlpha_iff] at h
    omega
  have found := ascii c.toNat bound
  rw [Char.ofNat_toNat] at found
  exact found h

theorem le_foldl (cs : List Char) (sum : Nat) :
    sum ≤ cs.foldl (fun sum c => sum * 26 + digit c) sum := by
  induction cs generalizing sum with
  | nil => exact Nat.le_refl sum
  | cons c cs ih => exact Nat.le_trans (by omega) (ih (sum * 26 + digit c))

/-- The bound on every prefix is the bound on the whole, since a numeral only grows. -/
theorem read_eq_ok_iff (start : sum ≤ maxCols) : read whole sum cs = .ok n ↔
    (∀ c ∈ cs, c.isAlpha) ∧ cs.foldl (fun sum c => sum * 26 + digit c) sum = n ∧ n ≤ maxCols := by
  induction cs generalizing sum with
  | nil =>
      simp only [read, Except.ok.injEq, List.foldl_nil]
      constructor
      · rintro rfl
        exact ⟨by simp, rfl, start⟩
      · exact fun h => h.2.1
  | cons c cs ih =>
      have grows := le_foldl cs (sum * 26 + digit c)
      rw [read, List.forall_mem_cons, List.foldl_cons]
      dsimp only
      by_cases alpha : c.isAlpha
      · rw [if_pos alpha]
        by_cases small : sum * 26 + digit c ≤ maxCols
        · rw [if_pos small, ih small]
          simp [alpha]
        · rw [if_neg small]
          simp only [reduceCtorEq, false_iff]
          rintro ⟨-, same, bound⟩
          omega
      · rw [if_neg alpha]
        simp [alpha]

/-- Exactly the numerals of the grid's columns are read. -/
theorem ofLetters_eq_ok_iff : ofLetters cs = .ok col ↔
    cs ≠ [] ∧ (∀ c ∈ cs, c.isAlpha) ∧ value cs = col + 1 ∧ col < maxCols := by
  cases cs with
  | nil => simp [ofLetters]
  | cons c cs =>
      have letters (n : Nat) : read (c :: cs) 0 (c :: cs) = .ok n ↔
          (∀ d ∈ c :: cs, d.isAlpha) ∧ value (c :: cs) = n ∧ n ≤ maxCols :=
        read_eq_ok_iff (Nat.zero_le _)
      have positive (alpha : ∀ d ∈ c :: cs, d.isAlpha) : 1 ≤ value (c :: cs) := by
        have first := (letter_digit (alpha c List.mem_cons_self)).1
        have grows := le_foldl cs (0 * 26 + digit c)
        rw [value, List.foldl_cons]
        omega
      rw [ofLetters, if_neg (by simp)]
      constructor
      · intro h
        cases found : read (c :: cs) 0 (c :: cs) with
        | error fault =>
            rw [found] at h
            cases h
        | ok n =>
            rw [found] at h
            cases h
            obtain ⟨alpha, same, bound⟩ := (letters n).mp found
            have := positive alpha
            refine ⟨by simp, alpha, ?_, ?_⟩ <;> dsimp only <;> omega
      · rintro ⟨-, alpha, same, bound⟩
        rw [(letters (col + 1)).mpr ⟨alpha, same, bound⟩]
        rfl

/-- Reading letters behind a numeral and writing the value puts them behind the numeral. -/
theorem numeral_foldl (letters : ∀ c ∈ cs, c.isAlpha) (sum : Nat) :
    numeral (cs.foldl (fun sum c => sum * 26 + digit c) sum) = numeral sum ++ Text.upper cs := by
  induction cs generalizing sum with
  | nil => simp [Text.upper]
  | cons c cs ih =>
      obtain ⟨positive, bound, upper⟩ := letter_digit (letters c List.mem_cons_self)
      obtain ⟨d, hd⟩ := Nat.exists_eq_add_of_le' positive
      have quotient : (sum * 26 + d) / 26 = sum := by omega
      have remainder : (sum * 26 + d) % 26 = d := by omega
      rw [hd, Nat.add_sub_cancel] at upper
      rw [List.foldl_cons, ih (fun d hd => letters d (List.mem_cons_of_mem c hd)), hd,
        ← Nat.add_assoc, numeral, quotient, remainder, upper, List.append_assoc]
      rfl

/-- Letters are the numeral of their value, up to case. -/
theorem numeral_value (letters : ∀ c ∈ cs, c.isAlpha) : numeral (value cs) = Text.upper cs := by
  have written := numeral_foldl letters 0
  rwa [numeral, List.nil_append] at written

end Column

namespace Reference

variable {ds whole : List Char} {row : Nat}

/-- Exactly the numbers of the grid's rows are read, with any number of zeros in front. -/
theorem readRow_eq_ok_iff : readRow whole ds = .ok row ↔
    ds ≠ [] ∧ (∀ d ∈ ds, d.isDigit) ∧ Nat.ofDigitChars 10 ds 0 = row + 1 ∧ row < maxRows := by
  have small : maxRows ≤ maxRowNumber := by decide
  unfold readRow
  dsimp only
  by_cases empty : ds.isEmpty
  · rw [if_pos empty]
    simp [List.isEmpty_iff.mp empty]
  rw [if_neg empty]
  by_cases digits : ds.all Char.isDigit
  · rw [if_neg (by simp [digits])]
    have form : ds ≠ [] ∧ ∀ d ∈ ds, d.isDigit :=
      ⟨by simpa using empty, List.all_eq_true.mp digits⟩
    rw [← and_assoc, and_iff_right form]
    cases Nat.ofDigitChars 10 ds 0 with
    | zero => simp
    | succ n =>
        dsimp only
        split
        · simp
          omega
        split
        · simp
          omega
        · simp
          omega
  · rw [if_pos (by simpa using digits)]
    simp only [reduceCtorEq, false_iff]
    rintro ⟨-, all, -⟩
    exact digits (List.all_eq_true.mpr all)

theorem digitChar_of_isDigit {d : Char} (h : d.isDigit) :
    d.toNat - '0'.toNat < 10 ∧ Nat.digitChar (d.toNat - '0'.toNat) = d := by
  rw [Text.isDigit_iff] at h
  have zero : '0'.toNat = 48 := rfl
  have small : d.toNat - '0'.toNat < 10 := by omega
  refine ⟨small, Char.toNat_inj.mp ?_⟩
  rw [Nat.toNat_digitChar_of_lt_ten small]
  omega

/-- Reading digits behind a number and writing the value puts them behind the number. -/
theorem toDigits_ofDigitChars_append (digits : ∀ d ∈ ds, d.isDigit) {n : Nat} (positive : 0 < n) :
    Nat.toDigits 10 (Nat.ofDigitChars 10 ds n) = Nat.toDigits 10 n ++ ds := by
  induction ds generalizing n with
  | nil => simp
  | cons d ds ih =>
      obtain ⟨small, same⟩ := digitChar_of_isDigit (digits d List.mem_cons_self)
      have step := Nat.toDigits_append_toDigits (b := 10) (by decide) positive small
      rw [Nat.toDigits_of_lt_base small, same] at step
      rw [Nat.ofDigitChars_cons, ih (fun d hd => digits d (List.mem_cons_of_mem _ hd)) (by omega),
        ← step, List.append_assoc, List.singleton_append]

/-- Digits are the number of their value, up to zeros in front. -/
theorem toDigits_ofDigitChars (digits : ∀ d ∈ ds, d.isDigit)
    (positive : 0 < Nat.ofDigitChars 10 ds 0) :
    Nat.toDigits 10 (Nat.ofDigitChars 10 ds 0) = ds.dropWhile (· == '0') := by
  induction ds with
  | nil => cases positive
  | cons d ds ih =>
      have behind := fun d hd => digits d (List.mem_cons_of_mem _ hd)
      by_cases zero : d = '0'
      · subst zero
        rw [Nat.ofDigitChars_cons] at positive ⊢
        rw [List.dropWhile_cons_of_pos rfl]
        exact ih behind positive
      · obtain ⟨small, same⟩ := digitChar_of_isDigit (digits d List.mem_cons_self)
        have nonzero : 0 < d.toNat - '0'.toNat := by
          rw [Nat.pos_iff_ne_zero]
          intro none
          rw [none] at same
          exact zero same.symm
        rw [Nat.ofDigitChars_cons, Nat.mul_zero, Nat.zero_add,
          toDigits_ofDigitChars_append behind nonzero, Nat.toDigits_of_lt_base small, same,
          List.dropWhile_cons_of_neg (by simpa using zero), List.singleton_append]

end Reference

end Spreadsheet
