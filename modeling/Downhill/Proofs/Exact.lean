import Mathlib
import Downhill.Scalar

namespace Downhill.Scalar

noncomputable instance exact : Scalar ℝ where
  decLt := Real.decidableLT
  decLe := Real.decidableLE
  sqrt := Real.sqrt
  abs v := |v|
  signum v := if v < 0 then -1 else 1
  isFinite _ := true

@[simp]
theorem sqrt_exact (v : ℝ) : Scalar.sqrt v = √v :=
  rfl

@[simp]
theorem abs_exact (v : ℝ) : Scalar.abs v = |v| :=
  rfl

@[simp]
theorem isFinite_exact (v : ℝ) : Scalar.isFinite v = true :=
  rfl

@[simp]
theorem lesser_exact (a b : ℝ) : Scalar.lesser a b = min a b := by
  unfold Scalar.lesser
  split
  · rename_i below
    exact (min_eq_right below.le).symm
  · rename_i above
    exact (min_eq_left (not_lt.mp above)).symm

@[simp]
theorem atLeast_exact (floor v : ℝ) : Scalar.atLeast floor v = max floor v := by
  unfold Scalar.atLeast
  split
  · rename_i above
    exact (max_eq_right above.le).symm
  · rename_i below
    exact (max_eq_left (not_lt.mp below)).symm

@[simp]
theorem total_exact (terms : List ℝ) : Scalar.total terms = terms.sum :=
  List.sum_eq_foldl.symm

end Downhill.Scalar
