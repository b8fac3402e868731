import Downhill.Proofs.Exact
import Downhill.Schema

namespace Downhill

variable {α : Type} {name : String} {done : Unit}

@[simp]
theorem requireNonzero_eq_ok {n : UInt64} :
    (requireNonzero name n : Except (Failure α) Unit) = .ok done ↔ 0 < n := by
  unfold requireNonzero
  split
  · rename_i positive
    exact iff_of_true rfl positive
  · rename_i zero
    exact iff_of_false nofun zero

variable [Scalar α] {v : α}

@[simp]
theorem requirePositive_eq_ok :
    requirePositive name v = .ok done ↔ Scalar.isFinite v = true ∧ 0 < v := by
  unfold requirePositive
  split
  · rename_i inside
    exact iff_of_true rfl inside
  · rename_i outside
    exact iff_of_false nofun outside

@[simp]
theorem requireFraction_eq_ok : requireFraction name v = .ok done ↔ 0 < v ∧ v < 1 := by
  unfold requireFraction
  split
  · rename_i inside
    exact iff_of_true rfl inside
  · rename_i outside
    exact iff_of_false nofun outside

end Downhill
