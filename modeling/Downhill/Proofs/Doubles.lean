import Mathlib
import Downhill.Decimal.Double
import Downhill.Machine

namespace Downhill

open Float.Model UnpackedFloat

/-- What lies strictly between zero and one is finite. It holds of the reals, where everything is finite, and of
machine numbers. -/
def Scalar.FiniteFractions (α : Type) [Scalar α] : Prop :=
  ∀ v : α, 0 < v → v < 1 → Scalar.isFinite v = true

theorem Double.finiteFractions : Scalar.FiniteFractions Float := by
  intro v positive small
  have zero : (Float.ofNat 0).toModel.unpack = .zero .positive := rfl
  have one : (Float.ofNat 1).toModel.unpack = .finite .positive 4503599627370496 (-52) (by decide) := rfl
  have above : UnpackedFloat.lt (Float.ofNat 0).toModel.unpack v.toModel.unpack = true := of_decide_eq_true positive
  have below : UnpackedFloat.lt v.toModel.unpack (Float.ofNat 1).toModel.unpack = true := of_decide_eq_true small
  rw [zero] at above
  rw [one] at below
  change v.toModel.unpack.isFinite = true
  cases shape : v.toModel.unpack with
  | notANumber =>
    rw [shape] at below
    cases below
  | infinity sign =>
    rw [shape] at above below
    cases sign with
    | negative => cases above
    | positive => cases below
  | zero => rfl
  | finite => rfl

namespace Double

/-- An undefined number is below no other. -/
theorem not_undefined_le (v : Float) : ¬ (0.0 / 0.0 : Float) ≤ v := by
  intro below
  have ordered : UnpackedFloat.le (0.0 / 0.0 : Float).toModel.unpack v.toModel.unpack = true :=
    of_decide_eq_true below
  have shape : (0.0 / 0.0 : Float).toModel.unpack = .notANumber := rfl
  rw [shape] at ordered
  cases ordered

theorem toNat_unpackExponent (bits : UInt64) :
    (@unpackExponent Format.binary64 bits.toBitVec).toNat = bits.toNat / leadingBit % 2048 := by
  simp only [unpackExponent, BitVec.toNat_cast, BitVec.extractLsb_toNat, Nat.shiftRight_eq_div_pow]
  rfl

theorem unpackExponent_eq_allOnes (bits : UInt64) :
    @unpackExponent Format.binary64 bits.toBitVec = -1#_ ↔ bits.toNat / leadingBit % 2048 = 2047 := by
  rw [← toNat_unpackExponent, ← BitVec.toNat_inj]
  rfl

theorem isFinite_iff_field (v : Float) : v.isFinite = true ↔ v.toBits.toNat / leadingBit % 2048 ≠ 2047 := by
  rw [Ne, ← unpackExponent_eq_allOnes]
  change (UnpackedFloat.unpack Format.binary64 v.toBits.toBitVec).isFinite = true ↔ _
  unfold UnpackedFloat.unpack
  dsimp only
  split
  · rename_i full
    split <;> exact iff_of_false Bool.false_ne_true (Classical.not_not.mpr full)
  · rename_i others
    split
    · split <;> exact iff_of_true rfl others
    · exact iff_of_true rfl others

/-- The bits of a finite number stand for a finite value, those of any other do not. -/
theorem isFinite_iff {v : Float} : v.isFinite = true ↔ ∃ negative m e, ofFloat v = .finite negative m e := by
  rw [isFinite_iff_field]
  unfold ofFloat ofBits
  dsimp only
  split
  · rename_i full
    refine iff_of_false (Classical.not_not.mpr full) ?_
    split <;> exact fun ⟨_, _, _, same⟩ => nomatch same
  · rename_i others
    refine iff_of_true others ?_
    split <;> exact ⟨_, _, _, rfl⟩

end Double

end Downhill
