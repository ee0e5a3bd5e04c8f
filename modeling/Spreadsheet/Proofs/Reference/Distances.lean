import Spreadsheet.Proofs.Address.Moving
import Spreadsheet.Proofs.Reference.RoundTrip

/-!
# Moving a reference exactly and in steps

Moving a reference by one distance and then by another one is moving it by their sum, if it is on
the grid in between. Sums wrap modulo `2 ^ 64`; as both ways wrap alike, distances may be of any
size.

For indices of 32 bits and distances of 64 bits, moving is exact as well. A sum that wraps comes out
negative, so it is never taken for a line of the grid, and a sum on the grid is small enough for the
32 bits of an index. So a reference is lost exactly if the true sum of an index and a distance leads
off the grid.
-/

namespace Spreadsheet

variable {limit index moved : Nat} {fixed : Bool} {delta : Int}

/-! ### Steps -/

/-- A relative index that stays on the grid is the wrapped sum. -/
theorem offsetIndex_relative (h : offsetIndex limit index false delta = some moved) :
    (moved : Int) = Int.bmod (index + delta) UInt64.size := by
  unfold offsetIndex at h
  dsimp only at h
  split at h
  · contradiction
  · split at h
    · next bounds =>
        cases h
        exact Int.toNat_of_nonneg bounds.1
    · cases h

/-- Two steps of an index are one step by both distances. -/
theorem offsetIndex_offsetIndex (h : offsetIndex limit index fixed delta = some moved)
    (delta' : Int) :
    offsetIndex limit moved fixed delta' = offsetIndex limit index fixed (delta + delta') := by
  cases fixed with
  | true =>
      cases h
      rfl
  | false =>
      have wrapped : Int.bmod (moved + delta') UInt64.size =
          Int.bmod (index + (delta + delta')) UInt64.size := by
        rw [offsetIndex_relative h, Int.bmod_add_bmod, Int.add_assoc]
      simp only [offsetIndex, wrapped, Bool.false_eq_true, ↓reduceIte]

/-- A distance counts modulo the number of 64-bit words. -/
theorem offsetIndex_bmod (limit index : Nat) (fixed : Bool) (delta : Int) :
    offsetIndex limit index fixed (Int.bmod delta UInt64.size) =
      offsetIndex limit index fixed delta := by
  unfold offsetIndex
  rw [Int.add_bmod_bmod]

theorem offsetIndex_zero (start : index < limit) (small : 2 * limit ≤ UInt64.size) :
    offsetIndex limit index fixed 0 = some index := by
  have same : Int.bmod (index + 0) UInt64.size = index := by
    rw [Int.add_zero]
    exact Int.bmod_eq_of_le (by omega) (by omega)
  unfold offsetIndex
  simp only [same]
  split
  · rfl
  · rw [if_pos (by omega), Int.toNat_natCast]

namespace Reference

variable {r r' : Reference} {cols rows : Int}

/-- Two steps of a reference are one step by both distances, if the first one does not lead off the
grid. -/
theorem offset_offset (moved : r.offset cols rows = some r') (cols' rows' : Int) :
    r'.offset cols' rows' = r.offset (cols + cols') (rows + rows') := by
  obtain ⟨⟨row, col⟩, colFixed, rowFixed⟩ := offset_eq_some.mp moved
  rw [colFixed] at col
  rw [rowFixed] at row
  simp only [offset, colFixed, rowFixed, offsetIndex_offsetIndex col, offsetIndex_offsetIndex row]

/-- Distances can be added as words before a reference is moved by them. -/
theorem offset_add (r : Reference) (cols rows cols' rows' : Int64) :
    r.offset (cols + cols').toInt (rows + rows').toInt =
      r.offset (cols.toInt + cols'.toInt) (rows.toInt + rows'.toInt) := by
  have wraps (d d' : Int64) : (d + d').toInt = Int.bmod (d.toInt + d'.toInt) UInt64.size :=
    Int64.toInt_add d d'
  simp only [offset, wraps, offsetIndex_bmod]

/-- A reference on the grid stays where it is if it is moved by nothing. -/
theorem InGrid.offset_zero (h : r.InGrid) : r.offset 0 0 = some r :=
  offset_eq_some.mpr
    ⟨⟨offsetIndex_zero h.row (by decide), offsetIndex_zero h.col (by decide)⟩, rfl, rfl⟩

end Reference

/-! ### Indices and distances in words -/

theorem Axis.limit_le_size (axis : Axis) : axis.limit ≤ UInt32.size := by
  cases axis <;> decide

/-- The distance along an axis of a move by `cols` columns and `rows` rows. -/
def Axis.distance (cols rows : Int64) : Axis → Int64
  | .row => rows
  | .col => cols

/-- An index and a distance added as signed 64-bit words. -/
theorem toInt_ofNat_add (index : Nat) (delta : Int64) :
    (Int64.ofNat index + delta).toInt = Int.bmod (index + delta.toInt) UInt64.size := by
  rw [Int64.toInt_add, Int64.toInt_ofNat']
  exact Int.bmod_add_bmod

/-- A sum wraps only past the largest word, and it comes out negative then. The other end is out of
reach, because no index is negative. -/
theorem bmod_add_eq_or_neg (small : index < UInt32.size) (delta : Int64) :
    Int.bmod (index + delta.toInt) UInt64.size = index + delta.toInt ∨
      Int.bmod (index + delta.toInt) UInt64.size < 0 ∧
        Int64.maxValue.toInt < index + delta.toInt := by
  have least : -2 ^ 63 ≤ delta.toInt := delta.le_toInt
  have largest : delta.toInt < 2 ^ 63 := delta.toInt_lt
  have last : Int64.maxValue.toInt = 2 ^ 63 - 1 := by decide
  have size : UInt64.size = 2 ^ 64 := rfl
  have size' : UInt32.size = 2 ^ 32 := rfl
  by_cases fits : index + delta.toInt ≤ Int64.maxValue.toInt
  · exact .inl (Int.bmod_eq_of_le (by omega) (by omega))
  · have wrapped : Int.bmod (index + delta.toInt) UInt64.size =
        index + delta.toInt - UInt64.size := by
      rw [← Int.sub_bmod_right]
      exact Int.bmod_eq_of_le (by omega) (by omega)
    exact .inr ⟨by omega, by omega⟩

/-- An index moves exactly: a relative one to the true sum if that is on the grid, and a fixed one
not at all. -/
theorem offsetIndex_eq_some_iff (room : limit ≤ UInt32.size) (small : index < UInt32.size)
    (delta : Int64) : offsetIndex limit index fixed delta.toInt = some moved ↔
      if fixed then moved = index else (moved : Int) = index + delta.toInt ∧ moved < limit := by
  have last : (UInt32.size : Int) ≤ Int64.maxValue.toInt := by decide
  unfold offsetIndex
  cases fixed with
  | true => simp [eq_comm]
  | false =>
      simp only [Bool.false_eq_true, ↓reduceIte, Option.ite_none_right_eq_some, Option.some.injEq]
      rcases bmod_add_eq_or_neg small delta with exact | ⟨negative, past⟩
      · rw [exact]
        omega
      · omega

/-- Whether an index stays on the grid is decided by the true sum. -/
theorem isSome_offsetIndex_iff (room : limit ≤ UInt32.size) (small : index < UInt32.size)
    (delta : Int64) : (offsetIndex limit index fixed delta.toInt).isSome ↔
      (fixed = false → 0 ≤ index + delta.toInt ∧ index + delta.toInt < limit) := by
  simp only [Option.isSome_iff_exists, offsetIndex_eq_some_iff room small]
  cases fixed with
  | true => simp
  | false =>
      simp only [Bool.false_eq_true, ↓reduceIte, forall_const]
      constructor
      · rintro ⟨moved, same, bound⟩
        omega
      · rintro ⟨nonneg, bound⟩
        exact ⟨(index + delta.toInt).toNat, by omega, by omega⟩

/-- A sum of words that is not negative is the true sum. -/
theorem toInt_ofNat_add_of_nonneg (small : index < UInt32.size) {delta : Int64}
    (nonneg : 0 ≤ (Int64.ofNat index + delta).toInt) :
    (Int64.ofNat index + delta).toInt = index + delta.toInt := by
  rw [toInt_ofNat_add] at nonneg ⊢
  rcases bmod_add_eq_or_neg small delta with same | ⟨negative, -⟩
  · exact same
  · exact absurd nonneg (Int.not_le.mpr negative)

/-- Narrowing a word of 64 bits to 32 bits keeps its value if that is one of 32 bits. -/
theorem toNat_toUInt32 {word : Int64} (nonneg : 0 ≤ word.toInt)
    (small : word.toInt < UInt32.size) : word.toUInt64.toUInt32.toNat = word.toInt := by
  obtain ⟨n, value⟩ := Int.eq_ofNat_of_zero_le nonneg
  have fits : n < UInt32.size := by omega
  have word_eq : word = Int64.ofNat n := by
    rw [← Int64.toInt_inj, value, Int64.toInt_ofNat_of_lt (Nat.lt_trans fits (by decide))]
  rw [value, word_eq, Int64.toUInt64_ofNat', UInt64.toUInt32_ofNat', UInt32.toNat_ofNat_of_lt' fits]

namespace Reference

variable {r r' : Reference} {cols rows : Int64}

/-- A reference moves along each axis on its own. -/
theorem offset_eq_some_iff_forall : r.offset cols.toInt rows.toInt = some r' ↔
    ∀ axis, r'.fixedOn axis = r.fixedOn axis ∧
      offsetIndex axis.limit (r.along axis) (r.fixedOn axis) (axis.distance cols rows).toInt =
        some (r'.along axis) := by
  rw [offset_eq_some, Axis.forall_iff]
  constructor
  · rintro ⟨⟨row, col⟩, colFixed, rowFixed⟩
    exact ⟨⟨rowFixed.symm, row⟩, colFixed.symm, col⟩
  · rintro ⟨⟨rowFixed, row⟩, colFixed, col⟩
    exact ⟨⟨row, col⟩, colFixed.symm, rowFixed.symm⟩

/-- A reference stays on the grid if both of its indices do. -/
theorem isSome_offset_iff_forall : (r.offset cols.toInt rows.toInt).isSome ↔
    ∀ axis, (offsetIndex axis.limit (r.along axis) (r.fixedOn axis)
      (axis.distance cols rows).toInt).isSome := by
  simp only [Option.isSome_iff_exists]
  constructor
  · rintro ⟨moved, h⟩ axis
    exact ⟨_, (offset_eq_some_iff_forall.mp h axis).2⟩
  · intro stays
    obtain ⟨row, hrow⟩ := stays .row
    obtain ⟨col, hcol⟩ := stays .col
    exact ⟨⟨⟨row, col⟩, r.colFixed, r.rowFixed⟩,
      offset_eq_some_iff_forall.mpr (Axis.forall_iff.mpr ⟨⟨rfl, hrow⟩, rfl, hcol⟩)⟩

/-- The index of a moved reference, which is a word again. -/
theorem along_of_offset (words : ∀ axis, r.along axis < UInt32.size)
    (moved : r.offset cols.toInt rows.toInt = some r') (axis : Axis) :
    (r'.along axis : Int) = (if r.fixedOn axis then (r.along axis : Int)
      else r.along axis + (axis.distance cols rows).toInt) ∧ r'.along axis < UInt32.size := by
  have room := axis.limit_le_size
  have index := (offset_eq_some_iff_forall.mp moved axis).2
  rw [offsetIndex_eq_some_iff room (words axis)] at index
  cases fixed : r.fixedOn axis with
  | true =>
      rw [if_pos fixed] at index
      exact ⟨congrArg Nat.cast index, index ▸ words axis⟩
  | false =>
      rw [if_neg (by simp [fixed])] at index
      exact ⟨index.1, Nat.lt_of_lt_of_le index.2 room⟩

/-- Moving is exact. Let the indices of a reference be words of 32 bits and the distances signed
words of 64 bits. Where their sum in words lies on the grid it is the true sum, also when it is
narrowed to 32 bits. The reference stays on the grid exactly if the true sum does on every axis on
which the reference is relative. Then that sum is its index, while fixed indices and the dollar
signs are kept, and both indices are words again. A second move from there is one move by both
distances, added as words, so by their true sums if these are words. -/
theorem offset_exact (r : Reference) (words : ∀ axis, r.along axis < UInt32.size)
    (cols rows : Int64) :
    let word (axis : Axis) : Int64 := Int64.ofNat (r.along axis) + axis.distance cols rows
    let sum (axis : Axis) : Int := r.along axis + (axis.distance cols rows).toInt
    (∀ axis, 0 ≤ (word axis).toInt → (word axis).toInt < axis.limit →
      (word axis).toInt = sum axis ∧ (word axis).toUInt64.toUInt32.toNat = sum axis) ∧
    ((r.offset cols.toInt rows.toInt).isSome ↔
      ∀ axis, r.fixedOn axis = false → 0 ≤ sum axis ∧ sum axis < axis.limit) ∧
    ∀ moved, r.offset cols.toInt rows.toInt = some moved →
      (∀ axis, moved.fixedOn axis = r.fixedOn axis ∧
        (moved.along axis : Int) = if r.fixedOn axis then (r.along axis : Int) else sum axis) ∧
      (∀ axis, moved.along axis < UInt32.size) ∧
      ∀ cols' rows' : Int64, moved.offset cols'.toInt rows'.toInt =
        r.offset (cols + cols').toInt (rows + rows').toInt := by
  intro word sum
  refine ⟨fun axis nonneg bound => ?_, ?_, fun moved h => ⟨fun axis => ?_, fun axis => ?_, ?_⟩⟩
  · have room := axis.limit_le_size
    have same : (word axis).toInt = sum axis := toInt_ofNat_add_of_nonneg (words axis) nonneg
    exact ⟨same, (toNat_toUInt32 nonneg (by omega)).trans same⟩
  · rw [isSome_offset_iff_forall]
    exact forall_congr' fun axis =>
      isSome_offsetIndex_iff axis.limit_le_size (words axis) (axis.distance cols rows)
  · exact ⟨(offset_eq_some_iff_forall.mp h axis).1, (along_of_offset words h axis).1⟩
  · exact (along_of_offset words h axis).2
  · intro cols' rows'
    rw [offset_add, offset_offset h]

/-- The last row that a word can name is far behind the grid, but a relative index comes onto the
grid from there. The fixed column stays behind the grid, however far it is moved, and the columns of
the two steps wrap to minus two. With the largest distance the sum wraps, and the reference is
lost. -/
theorem offset_exact_far :
    let r : Reference := ⟨⟨4294967295, 16384⟩, true, false⟩
    let moved : Reference := ⟨⟨0, 16384⟩, true, false⟩
    (∀ axis, r.along axis < UInt32.size) ∧
    r.offset Int64.maxValue.toInt (-4294967295 : Int64).toInt = some moved ∧
    moved.offset Int64.maxValue.toInt (1048575 : Int64).toInt =
      r.offset (-2 : Int64).toInt (-4293918720 : Int64).toInt ∧
    ¬ (r.offset 0 Int64.maxValue.toInt).isSome := by
  intro r moved
  have words : ∀ axis, r.along axis < UInt32.size := by
    rw [Axis.forall_iff]
    decide
  have found : r.offset Int64.maxValue.toInt (-4294967295 : Int64).toInt = some moved := by decide
  obtain ⟨-, -, step⟩ := offset_exact r words Int64.maxValue (-4294967295)
  obtain ⟨-, stays, -⟩ := offset_exact r words 0 Int64.maxValue
  refine ⟨words, found, (step moved found).2.2 Int64.maxValue 1048575, fun onGrid => ?_⟩
  exact absurd (stays.mp onGrid .row rfl).2 (by decide)

end Reference

end Spreadsheet
