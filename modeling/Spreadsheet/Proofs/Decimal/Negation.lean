import Mathlib

/-!
# Negative doubles

The negative of a double is finite exactly if the double is: the sign is kept apart from the
exponent, and the exponent alone tells. A double is unpacked before its sign is changed and packed
afterwards. That packing undoes unpacking comes with the whole library only, with none of its parts.
-/

namespace Spreadsheet.Decimal

open Float.Model

/-- A double is finite unless all bits of its exponent are set. -/
theorem isFinite_unpack {spec : Format} (b : BitVec spec.numBits) :
    (UnpackedFloat.unpack spec b).isFinite ↔ UnpackedFloat.unpackExponent b ≠ -1#_ := by
  unfold UnpackedFloat.unpack
  dsimp only
  split
  · next infinite => split <;> simp [UnpackedFloat.isFinite, infinite]
  · next finite =>
      refine iff_of_true ?_ finite
      split
      · split <;> rfl
      · rfl

/-- The sign of a double is kept apart from its exponent. -/
theorem unpackExponent_pack_neg {spec : Format} (u : UnpackedFloat) :
    UnpackedFloat.unpackExponent (UnpackedFloat.pack spec u.neg) =
      UnpackedFloat.unpackExponent (UnpackedFloat.pack spec u) := by
  cases u with
  | notANumber => rfl
  | infinity sign | zero sign =>
      simp only [UnpackedFloat.neg, UnpackedFloat.pack, UnpackedFloat.packedInfinity,
        UnpackedFloat.packedZero, UnpackedFloat.unpackExponent_packComponents]
  | finite sign mantissa exponent positive =>
      simp only [UnpackedFloat.neg, UnpackedFloat.pack, UnpackedFloat.packedInfinity]
      split
      · simp only [UnpackedFloat.unpackExponent_packComponents]
      split <;> simp only [UnpackedFloat.unpackExponent_packComponents]

/-- The negative of a number is finite exactly if the number is. -/
theorem isFinite_neg (n : Float) : (-n).isFinite = n.isFinite := by
  rw [Bool.eq_iff_iff]
  refine (isFinite_unpack _).trans (Iff.trans ?_ (isFinite_unpack _).symm)
  show UnpackedFloat.unpackExponent
    (UnpackedFloat.pack Format.binary64 n.toModel.unpack.neg) ≠ _ ↔ _
  rw [unpackExponent_pack_neg, unpack, UnpackedFloat.pack_unpack_of_valid n.toModel.valid]

end Spreadsheet.Decimal
