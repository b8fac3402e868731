import Mathlib
import Downhill.Method.DynamicBarrier
import Downhill.Proofs.Affine

namespace Downhill.DynamicBarrier

section

variable {α : Type} [Scalar α] {dual : Dual α} {m n : Nat}

/-- The parts belong to `m` constraints in `n` coordinates. -/
structure Dual.Fits (dual : Dual α) (m n : Nat) : Prop where
  gradient : dual.gradient.size = n
  high : dual.jacobian.height = m
  wide : dual.jacobian.width = n
  barrier : dual.barrier.size = m

namespace Dual.Fits

variable (fits : dual.Fits m n)

include fits

theorem residual_ok {l : Coords α} (size : l.size = m) : ∃ r, dual.residual l = .ok r ∧ r.size = n := by
  obtain ⟨y, combined, ySize⟩ := Table.combineRows_ok (size.trans fits.high.symm)
  obtain ⟨r, added, rSize⟩ := Coords.add_ok fits.gradient (ySize.trans fits.wide)
  exact ⟨r, Outcome.bind_eq_ok.mpr ⟨y, combined, added⟩, rSize⟩

theorem conforming : dual.objective.Conforming m := by
  constructor <;> intro l size <;> obtain ⟨r, atResidual, rSize⟩ := fits.residual_ok size
  · have product : l.dot dual.barrier = .ok (l.pairing dual.barrier) := if_pos (size.trans fits.barrier.symm)
    refine ⟨0.5 * r.pairing r - l.pairing dual.barrier, ?_⟩
    simp only [objective, value, Outcome.bind_eq_ok, Outcome.pure_eq_ok]
    exact ⟨r, atResidual, r.pairing r, r.dot_self, l.pairing dual.barrier, product, rfl⟩
  · obtain ⟨y, applied, ySize⟩ := Table.apply_ok (A := dual.jacobian) (fits.wide.trans rSize.symm)
    obtain ⟨g, subtracted, gSize⟩ := Coords.sub_ok (ySize.trans fits.high) fits.barrier
    simp only [objective, Outcome.bind_eq_ok]
    exact ⟨g, ⟨r, atResidual, y, applied, subtracted⟩, gSize⟩

/-- Multipliers for all constraints have a direction. -/
theorem direction_ok {l : Coords α} (size : l.size = m) :
    ∃ d, direction dual.gradient dual.jacobian l = .ok d ∧ d.size = n := by
  obtain ⟨y, combined, ySize⟩ := Table.combineRows_ok (size.trans fits.high.symm)
  obtain ⟨d, subtracted, dSize⟩ :=
    Coords.sub_ok ((Coords.size_neg dual.gradient).trans fits.gradient) (ySize.trans fits.wide)
  exact ⟨d, Outcome.bind_eq_ok.mpr ⟨y, combined, subtracted⟩, dSize⟩

end Dual.Fits

theorem Dual.expands (dual : Dual α) (m : Nat) : dual.objective.Expands m := by
  intro l v g _ atValue atGradient
  simp only [objective, Outcome.bind_eq_ok, Outcome.pure_eq_ok] at atValue atGradient ⊢
  exact ⟨v, atValue, by simpa using atGradient⟩

end

section Exact

variable {dual : Dual ℝ} {m n : Nat} (fits : dual.Fits m n)

include fits

theorem Dual.Fits.vec_residual {l r : Coords ℝ} (made : dual.residual l = .ok r) :
    r.vec n = dual.gradient.vec n + (dual.jacobian.mat m n).transpose.mulVec (l.vec m) := by
  obtain ⟨y, combined, added⟩ := Outcome.bind_eq_ok.mp made
  rw [Coords.vec_add added, Table.vec_combineRows combined fits.high fits.wide, Matrix.mulVec_transpose]

theorem Dual.Fits.vec_gradient {l g : Coords ℝ} (made : dual.objective.gradient l = .ok g) :
    g.vec m = (dual.jacobian.mat m n).mulVec
      (dual.gradient.vec n + (dual.jacobian.mat m n).transpose.mulVec (l.vec m)) - dual.barrier.vec m := by
  simp only [objective, Outcome.bind_eq_ok] at made
  obtain ⟨r, atResidual, y, applied, subtracted⟩ := made
  rw [Coords.vec_sub subtracted, Table.vec_apply applied fits.high fits.wide, fits.vec_residual atResidual]

theorem Dual.Fits.vec_direction {l d : Coords ℝ} (made : direction dual.gradient dual.jacobian l = .ok d) :
    d.vec n = -dual.gradient.vec n - (dual.jacobian.mat m n).transpose.mulVec (l.vec m) := by
  obtain ⟨y, combined, subtracted⟩ := Outcome.bind_eq_ok.mp made
  rw [Coords.vec_sub subtracted, Coords.vec_neg, Table.vec_combineRows combined fits.high fits.wide,
    Matrix.mulVec_transpose]

/-- What the direction makes of the constraints is what is demanded, and beyond that the gradient. -/
theorem Dual.Fits.mulVec_turned {l g : Coords ℝ} (made : dual.objective.gradient l = .ok g) :
    (dual.jacobian.mat m n).mulVec
      (-dual.gradient.vec n - (dual.jacobian.mat m n).transpose.mulVec (l.vec m)) =
        -dual.barrier.vec m - g.vec m := by
  have turned : -dual.gradient.vec n - (dual.jacobian.mat m n).transpose.mulVec (l.vec m) =
      -(dual.gradient.vec n + (dual.jacobian.mat m n).transpose.mulVec (l.vec m)) := by abel
  rw [fits.vec_gradient made, turned, Matrix.mulVec_neg]
  abel

/-- The Hessian is the Jacobian times its transpose. -/
theorem Dual.Fits.constantHessian : ∃ K, K.mat m m = dual.jacobian.mat m n * (dual.jacobian.mat m n).transpose ∧
    dual.objective.ConstantHessian K m := by
  obtain ⟨K, made, high, wide, product⟩ := Table.mul_ok fits.high fits.wide
    (dual.jacobian.height_transpose.trans fits.wide) ((Table.width_ofFn _ _ _).trans fits.high)
  rw [Table.mat_transpose fits.high fits.wide] at product
  refine ⟨K, product, high, wide, fun _ _ => made, fun x y gx gy _ _ atX atY => ?_⟩
  rw [fits.vec_gradient atX, fits.vec_gradient atY, product, ← Matrix.mulVec_mulVec, Matrix.mulVec_sub,
    Matrix.mulVec_sub, Matrix.mulVec_add, Matrix.mulVec_add]
  abel

end Exact

end Downhill.DynamicBarrier
