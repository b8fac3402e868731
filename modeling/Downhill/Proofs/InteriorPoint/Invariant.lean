import Mathlib
import Downhill.Proofs.InteriorPoint.DualStep
import Downhill.Proofs.InteriorPoint.Step
import Downhill.Proofs.Problems
import Downhill.Proofs.Ranges
import Downhill.Proofs.Run.Trajectory

namespace Downhill.InteriorPoint

/-- A configuration that is accepted has positive tolerances and its two shares between zero and one. -/
theorem validate_eq_ok {config : Config ℝ} :
    schema.validate config = .ok () ↔ 0 < config.mu ∧ 0 < config.eps ∧ 0 < config.epsFeas ∧
      (0 < config.alpha ∧ config.alpha < 1) ∧ 0 < config.beta ∧ config.beta < 1 := by
  simp [schema]

/-- Strictly inside of all constraints, of which there are some, with a positive multiplier for each. -/
structure Interior (c : Constraints ℝ) (n : Nat) (s : MultiplierState ℝ) : Prop where
  constrained : c.count ≠ 0
  dimension : s.point.size = n
  strict : c.strictlyFeasible s.point = .ok true
  count : s.multipliers.size = c.count
  positive : ∀ l ∈ s.multipliers.toList, 0 < l

theorem strictlyFeasible_eq_ok {c : Constraints ℝ} {x : Coords ℝ} :
    c.strictlyFeasible x = .ok true ↔ ∃ values, c.values x = .ok values ∧ ∀ v ∈ values.toList, v < 0 := by
  simp [Constraints.strictlyFeasible]

/-- Below a point in every coordinate. -/
theorem strictlyFeasible_of_below {x b : Coords ℝ} {n : Nat} (size : x.size = n) (bounds : b.size = n)
    (below : ∀ i, x.vec n i < b.vec n i) :
    (Constraints.linear (.identity n) b).strictlyFeasible x = .ok true := by
  have high : (Table.identity n : Table ℝ).height = n := Table.height_identity n
  have conforming := Constraints.linear_conforming (high.trans bounds.symm) (Table.width_identity n)
  obtain ⟨values, atValues, count⟩ := conforming.values x size
  refine strictlyFeasible_eq_ok.mpr ⟨values, atValues, (Coords.forall_mem_iff (count.trans bounds)).mpr fun i => ?_⟩
  rw [Constraints.linear_values high (Table.width_identity n) atValues, Table.mat_identity, Matrix.one_mulVec]
  exact sub_neg_of_lt (below i)

section

variable {config : Config ℝ} {p : Constrained ℝ} {n : Nat} {s s' : MultiplierState ℝ}

theorem interior_start {x : Coords ℝ} (dimension : x.size = n) (made : (start p x).outcome = .ok s) :
    Interior p.constraints n s := by
  obtain ⟨constrained, strict, rfl⟩ := start_cases made
  refine ⟨constrained, dimension, strict, Coords.size_constant _ _, fun l member => ?_⟩
  have one : l = 1 := by
    simp [Coords.toList, Coords.constant] at member
    exact member.2
  exact one ▸ one_pos

/-- A share that the search returns is at most the first one, and the point there is strictly feasible. -/
theorem stepSize_bounds (valid : schema.validate config = .ok ())
    (strict : p.constraints.strictlyFeasible s.point = .ok true) {dx dl r : Coords ℝ} {t share : ℝ}
    (nonneg : 0 ≤ maxDualStep s.multipliers dl)
    (made : (stepSize config p s dx dl r t).outcome = .ok share) :
    0 ≤ share ∧ share ≤ stepShare * maxDualStep s.multipliers dl ∧
      ∀ x, s.point.advance share dx = .ok x → p.constraints.strictlyFeasible x = .ok true := by
  obtain ⟨_, _, _, _, positive, below⟩ := validate_eq_ok.mp valid
  have first : 0 ≤ stepShare * maxDualStep s.multipliers dl :=
    mul_nonneg (by norm_num [stepShare]) nonneg
  obtain ⟨last, ends, ⟨accepted, rfl⟩ | ⟨_, rfl⟩⟩ := stepSize_cases made
  · have bounds := Backtracking.trialStep_bounds first positive.le below.le last.shrinks
    rw [← ends.step] at bounds
    refine ⟨bounds.1, bounds.2, fun x moved => ?_⟩
    have trial := ends.trial
    rw [accepted] at trial
    obtain ⟨y, _, _, atPoint, feasible, _⟩ := attempt_accepts trial
    rw [Coords.advance_eq_add_scale mul_comm] at moved
    exact Except.ok.inj (moved.symm.trans atPoint) ▸ feasible
  · exact ⟨le_rfl, first, fun x moved => (Coords.advance_zero moved).symm ▸ strict⟩

/-- A step stays in the interior and leaves a hundredth of every multiplier. -/
theorem Interior.step (inside : Interior p.constraints n s) (valid : schema.validate config = .ok ())
    (made : (step config p s).outcome = .ok s') :
    Interior p.constraints n s' ∧
      ∀ i, s.multipliers.vec p.constraints.count i / 100 ≤ s'.multipliers.vec p.constraints.count i := by
  have positive := (Coords.forall_mem_iff inside.count).mp inside.positive
  obtain ⟨r, ⟨_, rfl⟩ | ⟨_, centrality, dx, dl, share, moves⟩⟩ := step_cases made
  · refine ⟨⟨inside.constrained, inside.dimension, inside.strict, inside.count, inside.positive⟩, ?_⟩
    intro i
    have here := positive i
    change s.multipliers.vec p.constraints.count i / 100 ≤ s.multipliers.vec p.constraints.count i
    linarith
  · obtain ⟨_, dimension⟩ := Coords.size_combine moves.point_eq
    obtain ⟨together, count⟩ := Coords.size_combine moves.multipliers_eq
    have directions : dl.size = p.constraints.count := together.symm.trans inside.count
    have largest := maxDualStep_pos inside.count directions positive
    obtain ⟨nonneg, within, strict⟩ :=
      stepSize_bounds valid inside.strict largest.le moves.share_eq
    have left : ∀ i, s.multipliers.vec p.constraints.count i / 100 ≤
        s'.multipliers.vec p.constraints.count i := by
      intro i
      rw [Coords.vec_advance moves.multipliers_eq]
      exact hundredth_le inside.count directions positive nonneg within i
    refine ⟨⟨inside.constrained, dimension.trans inside.dimension, strict _ moves.point_eq,
      count.trans inside.count, ?_⟩, left⟩
    refine (Coords.forall_mem_iff (count.trans inside.count)).mpr fun i => ?_
    exact (div_pos (positive i) (by norm_num)).trans_le (left i)

/-- The gap is the product of the multipliers with the distances to the bounds. -/
theorem gap_eq_ok {values l : Coords ℝ} {m : Nat} {eta : ℝ} (size : values.size = m) :
    gap values l = .ok eta ↔ l.size = m ∧ eta = -(values.vec m ⬝ᵥ l.vec m) := by
  simp only [gap, Outcome.bind_eq_ok, Outcome.pure_eq_ok]
  constructor
  · rintro ⟨v, made, rfl⟩
    obtain ⟨same, rfl⟩ := Coords.dot_eq size.le made
    exact ⟨same.symm.trans size, rfl⟩
  · rintro ⟨count, rfl⟩
    exact ⟨_, if_pos (size.trans count.symm), congrArg Neg.neg (Coords.pairing_eq size.le l)⟩

/-- The dual residual is the gradient of the Lagrangian. -/
theorem vec_dualResidual {gradient dual l : Coords ℝ} {J : Table ℝ} {m : Nat} (high : J.height = m)
    (wide : J.width = n) (made : dualResidual gradient J l = .ok dual) :
    dual.size = gradient.size ∧ dual.vec n = gradient.vec n + (J.mat m n).vecMul (l.vec m) := by
  simp only [dualResidual, Outcome.bind_eq_ok] at made
  obtain ⟨combined, atRows, atSum⟩ := made
  refine ⟨(Coords.size_combine atSum).2, ?_⟩
  rw [Coords.vec_add atSum, Table.vec_combineRows atRows high wide]

theorem dualResidual_ok {α : Type} [Scalar α] {gradient l : Coords α} {J : Table α} (size : gradient.size = n)
    (wide : J.width = n) (count : l.size = J.height) :
    ∃ dual, dualResidual gradient J l = .ok dual ∧ dual.size = n := by
  obtain ⟨combined, atRows, combinedSize⟩ := Table.combineRows_ok count
  obtain ⟨dual, atDual, dualSize⟩ := Coords.add_ok size (combinedSize.trans wide)
  exact ⟨dual, Outcome.bind_eq_ok.mpr ⟨combined, atRows, atDual⟩, dualSize⟩

/-- Where all values are negative and all multipliers positive, of which there are some, so is the gap. -/
theorem gap_pos {values l : Coords ℝ} {m : Nat} {eta : ℝ} (nonzero : m ≠ 0) (size : values.size = m)
    (negative : ∀ v ∈ values.toList, v < 0) (positive : ∀ v ∈ l.toList, 0 < v)
    (made : gap values l = .ok eta) : 0 < eta := by
  obtain ⟨count, rfl⟩ := (gap_eq_ok size).mp made
  have below := (Coords.forall_mem_iff size).mp negative
  have above := (Coords.forall_mem_iff count).mp positive
  have place : Fin m := ⟨0, Nat.pos_of_ne_zero nonzero⟩
  have products : ∀ i ∈ Finset.univ, values.vec m i * l.vec m i < 0 :=
    fun i _ => mul_neg_of_neg_of_pos (below i) (above i)
  exact neg_pos.mpr (Finset.sum_neg products ⟨place, Finset.mem_univ _⟩)

/-- In the interior the gap is positive. -/
theorem Interior.gap_pos (inside : Interior p.constraints n s) (conforming : p.constraints.Conforming n) :
    ∃ values eta, p.constraints.values s.point = .ok values ∧ values.size = p.constraints.count ∧
      (∀ v ∈ values.toList, v < 0) ∧ gap values s.multipliers = .ok eta ∧ 0 < eta := by
  obtain ⟨values, atValues, negative⟩ := strictlyFeasible_eq_ok.mp inside.strict
  have size := conforming.size_values inside.dimension atValues
  have made := (gap_eq_ok size).mpr ⟨inside.count, rfl⟩
  exact ⟨values, _, atValues, size, negative, made,
    InteriorPoint.gap_pos inside.constrained size negative inside.positive made⟩

theorem interior_of_after {x : Coords ℝ} (dimension : x.size = n)
    (valid : schema.validate config = .ok ()) {k : Nat}
    (reached : method.after config p x () k = .ok (s, ())) : Interior p.constraints n s :=
  Method.after_invariant (m := method) (fun _ started => interior_start dimension started)
    (fun _ _ _ inside made => (inside.step valid made).1) reached

end

end Downhill.InteriorPoint
