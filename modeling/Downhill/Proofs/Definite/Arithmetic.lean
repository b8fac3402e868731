import Mathlib
import Downhill.Objective
import Downhill.Proofs.Vectors

namespace Downhill

/-- The exact numbers, but for the quotients by zero and the roots of negative numbers, which are as given. -/
noncomputable abbrev Scalar.extended (quotient root : ℝ → ℝ) : Scalar ℝ :=
  { Scalar.exact with
    div := fun v w => if w = 0 then quotient v else v / w
    sqrt := fun v => if v < 0 then root v else √v }

variable {quotient root : ℝ → ℝ}

namespace Scalar

theorem div_extended (v : ℝ) {w : ℝ} (divisor : w ≠ 0) : (extended quotient root).div v w = v / w :=
  if_neg divisor

theorem sqrt_extended {v : ℝ} (radicand : 0 ≤ v) : (extended quotient root).sqrt v = √v :=
  if_neg radicand.not_gt

theorem div_sqrt_extended (v : ℝ) {w : ℝ} (positive : 0 < w) :
    (extended quotient root).div v ((extended quotient root).sqrt w) = v / √w := by
  rw [sqrt_extended positive.le]
  exact div_extended v (Real.sqrt_pos.mpr positive).ne'

theorem smallestNormal_pos : (0 : ℝ) < smallestNormal := by
  unfold smallestNormal
  generalize 1022 = n
  exact one_div_pos.mpr (Nat.cast_pos.mpr (Nat.pow_pos two_pos))

theorem smallestNormal_extended : @smallestNormal ℝ (extended quotient root) = smallestNormal := by
  unfold smallestNormal
  generalize 1022 = n
  exact div_extended 1 (Nat.cast_pos.mpr (Nat.pow_pos two_pos)).ne'

theorem total_nonneg {terms : List ℝ} (each : ∀ v ∈ terms, 0 ≤ v) : 0 ≤ total terms := by
  rw [total_exact]
  exact List.sum_nonneg each

end Scalar

namespace Coords

theorem pairing_self_nonneg (x : Coords ℝ) : 0 ≤ x.pairing x := by
  rw [pairing_eq le_rfl]
  exact Finset.sum_nonneg fun i _ => mul_self_nonneg _

theorem norm_extended : @norm ℝ (.extended quotient root) = norm :=
  funext fun x => Scalar.sqrt_extended x.pairing_self_nonneg

end Coords

theorem Objective.gradientNorm_extended : @gradientNorm ℝ (.extended quotient root) = gradientNorm := by
  unfold gradientNorm
  rw [Coords.norm_extended]

namespace Difference

/-- The step in a coordinate is positive, and so is what the difference of two gradients is divided by. -/
theorem step_pos (v : ℝ) : 0 < step v := by
  rw [step, Scalar.atLeast_exact]
  exact mul_pos (by norm_num [relativeStep]) (zero_lt_one.trans_le (le_max_left _ _))

theorem width_pos (v : ℝ) : (0 : ℝ) < 2.0 * step v :=
  mul_pos (by norm_num) (step_pos v)

theorem quotients_extended {steps : List ℝ} (positive : ∀ h ∈ steps, (0 : ℝ) < 2.0 * h)
    (gradients : List (Coords ℝ)) :
    @quotients ℝ (.extended quotient root) steps gradients = quotients steps gradients := by
  -- On the steps, two gradients for each of them.
  induction steps generalizing gradients with
  | nil => rfl
  | cons h steps ih =>
    match gradients with
    | [] | [_] => rfl
    | forward :: back :: others =>
      have divisor : (2.0 * h : ℝ) ≠ 0 := (positive h List.mem_cons_self).ne'
      have slope : (fun v => (Scalar.extended quotient root).div v (2.0 * h)) = fun v => v / (2.0 * h) :=
        funext fun v => Scalar.div_extended v divisor
      have rest := ih (fun k member => positive k (List.mem_cons_of_mem h member)) others
      change (forward.sub back >>= fun change => @quotients ℝ (.extended quotient root) steps others >>= fun rest =>
        pure (change.map (fun v => (Scalar.extended quotient root).div v (2.0 * h)) :: rest)) = _
      rw [slope, rest]
      rfl

theorem hessian_extended : @hessian ℝ (.extended quotient root) = hessian := by
  funext gradient x
  have positive : ∀ h ∈ x.toList.map step, (0 : ℝ) < 2.0 * h := by
    intro h member
    obtain ⟨v, _, rfl⟩ := List.mem_map.mp member
    exact width_pos v
  have same : @assemble ℝ (.extended quotient root) x = assemble x := by
    funext gradients
    change (@quotients ℝ (.extended quotient root) (x.toList.map step) gradients >>= _) = _
    rw [quotients_extended positive]
    rfl
  unfold hessian
  rw [same]
  rfl

end Difference

end Downhill
