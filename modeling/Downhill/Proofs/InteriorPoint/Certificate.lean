import Downhill.Proofs.InteriorPoint.Merit
import Downhill.Proofs.Run.Loop

namespace Downhill.InteriorPoint

variable {config : Config ℝ} {p : Constrained ℝ} {n : Nat} {s s' : MultiplierState ℝ}

/-- A state that is marked as finished has met both tolerances at its own point and multipliers. -/
def Certified (config : Config ℝ) (p : Constrained ℝ) (s : MultiplierState ℝ) : Prop :=
  s.finished = true → ∃ r : Reading p s, r.Converged config

theorem certified_start {x : Coords ℝ} (made : (start p x).outcome = .ok s) : Certified config p s := by
  obtain ⟨_, _, rfl⟩ := start_cases made
  exact nofun

theorem certified_step (unfinished : s.finished = false) (made : (step config p s).outcome = .ok s') :
    Certified config p s' := by
  intro finished
  obtain ⟨r, ⟨converged, rfl⟩ | ⟨_, _, _, _, _, moves⟩⟩ := step_cases made
  · exact ⟨⟨r.values, r.jacobian, r.hessian, r.gradient, r.curvature, r.eta, r.dual, r.values_eq,
      r.jacobian_eq, r.hessian_eq, r.gradient_eq, r.curvature_eq, r.gap_eq, r.dual_eq⟩, converged⟩
  · rw [moves.finished_eq, unfinished] at finished
    cases finished

/-- At a state in the interior with both tolerances met, no feasible point is much better. -/
theorem Reading.Converged.nearly_optimal {r : Reading p s} (converged : r.Converged config)
    (inside : Interior p.constraints n s) (objective : p.objective.Conforming n)
    (constraints : p.constraints.Conforming n) (convex : p.objective.Convex n)
    (convexConstraints : p.constraints.Convex n) {y d : Coords ℝ} {fx fy : ℝ} (size : y.size = n)
    (feasible : p.constraints.feasible y = .ok true) (here : p.objective.value s.point = .ok fx)
    (there : p.objective.value y = .ok fy) (apart : s.point.sub y = .ok d) :
    fx ≤ fy + config.eps + config.epsFeas * d.norm := by
  have valuesSize := constraints.size_values inside.dimension r.values_eq
  have gradientSize := objective.size_gradient inside.dimension r.gradient_eq
  obtain ⟨high, wide⟩ := constraints.shape_jacobian inside.dimension r.jacobian_eq
  obtain ⟨_, eta⟩ := (gap_eq_ok valuesSize).mp r.gap_eq
  obtain ⟨dualSize, dual⟩ := vec_dualResidual high wide r.dual_eq
  obtain ⟨bounds, atBounds, within⟩ := Constraints.feasible_eq_ok.mp feasible
  have boundsSize := constraints.size_values size atBounds
  have positive := (Coords.forall_mem_iff inside.count).mp inside.positive
  have back : y.vec n - s.point.vec n = -d.vec n := by
    rw [Coords.vec_sub apart, neg_sub]
  have slope := convex s.point y fx fy r.gradient inside.dimension size here there r.gradient_eq
  have tangent := convexConstraints s.point y r.values bounds r.jacobian inside.dimension size
    r.values_eq atBounds r.jacobian_eq
  rw [back] at slope tangent
  have rise := weighted_rise_le (fun i => (positive i).le) tangent
    ((Coords.forall_mem_iff boundsSize).mp within)
  rw [← eta, dotProduct_neg] at rise
  have reach := Coords.dotProduct_le_norms (dualSize.trans gradientSize).le
    ((Coords.size_combine apart).2.trans inside.dimension).le
  have residual : r.dual.vec n ⬝ᵥ d.vec n ≤ config.epsFeas * d.norm :=
    reach.trans (mul_le_mul_of_nonneg_right converged.1 (Real.sqrt_nonneg _))
  calc
    fx ≤ fy + r.gradient.vec n ⬝ᵥ d.vec n := by
      rw [dotProduct_neg] at slope
      linarith
    -- The gradient is the dual residual less what the constraints contribute to it.
    _ = fy + -((r.jacobian.mat p.constraints.count n).vecMul
          (s.multipliers.vec p.constraints.count) ⬝ᵥ d.vec n) + r.dual.vec n ⬝ᵥ d.vec n := by
      rw [dual, add_dotProduct]
      ring
    _ ≤ fy + config.eps + config.epsFeas * d.norm :=
      add_le_add (add_le_add_right (rise.trans converged.2) fy) residual

/-- A run returns a state in the interior, marked as finished only where both tolerances are met. -/
theorem run_certified {ρ : Type} {watch : Watch ℝ ρ} {records : ρ} {x : Coords ℝ} {budget : Nat}
    {summary : Summary ℝ (MultiplierState ℝ) (budget + 1)}
    (returned : (method.run config p watch () records x budget).1 = .ok summary) :
    Interior p.constraints x.size summary.state ∧ Certified config p summary.state ∧
      summary.finished = summary.state.finished := by
  have valid : schema.validate config = .ok () := Method.valid_of_run returned
  obtain ⟨⟨inside, certified⟩, mark⟩ := Method.run_keeps
    (fun s => Interior p.constraints x.size s ∧ Certified config p s)
    (fun _ started => ⟨interior_start rfl started, certified_start started⟩)
    (fun _ _ _ unfinished holds made =>
      ⟨(holds.1.step valid made).1, certified_step unfinished made⟩) returned
  exact ⟨inside, certified, mark⟩

/-- What a finished run returns is strictly feasible and, where the problem is convex, nearly optimal:
every feasible point has an objective lower by no more than `eps` and `epsFeas` times the distance to
it. -/
theorem finished_nearly_optimal {ρ : Type} (config : Config ℝ) (p : Constrained ℝ) (watch : Watch ℝ ρ)
    (records : ρ) (x : Coords ℝ) (budget : Nat) (objective : p.objective.Conforming x.size)
    (constraints : p.constraints.Conforming x.size) (convex : p.objective.Convex x.size)
    (convexConstraints : p.constraints.Convex x.size)
    (summary : Summary ℝ (MultiplierState ℝ) (budget + 1))
    (returned : (method.run config p watch () records x budget).1 = .ok summary)
    (finished : summary.finished = true) :
    (∃ values, p.constraints.values summary.state.point = .ok values ∧
      values.size = p.constraints.count ∧ ∀ v ∈ values.toList, v < 0) ∧
    ∃ fx, p.objective.value summary.state.point = .ok fx ∧
      ∀ y, y.size = x.size → p.constraints.feasible y = .ok true →
        ∃ fy d, p.objective.value y = .ok fy ∧ summary.state.point.sub y = .ok d ∧
          fx ≤ fy + config.eps + config.epsFeas * d.norm := by
  obtain ⟨inside, certified, mark⟩ := run_certified returned
  obtain ⟨values, _, atValues, size, negative, _⟩ := inside.gap_pos constraints
  obtain ⟨r, converged⟩ := certified (mark.symm.trans finished)
  obtain ⟨fx, here⟩ := objective.value summary.state.point inside.dimension
  refine ⟨⟨values, atValues, size, negative⟩, fx, here, fun y fits feasible => ?_⟩
  obtain ⟨fy, there⟩ := objective.value y fits
  obtain ⟨d, apart, _⟩ := Coords.combine_ok (· - ·) (inside.dimension.trans fits.symm)
  exact ⟨fy, d, there, apart, converged.nearly_optimal inside objective constraints convex
    convexConstraints fits feasible here there apart⟩

theorem boxed_convex (n : Nat) : (boxed n).objective.Convex n ∧ (boxed n).constraints.Convex n :=
  ⟨Objective.halfSquare_convex n, Constraints.linear_convex
    ((Table.height_identity n).trans (Coords.size_constant n _).symm) (Table.width_identity n)⟩

/-- A run that finishes in a box after two iterations. -/
theorem run_boxed : ∃ summary,
    (method.run tight (boxed 1) (.none : Watch ℝ Unit) () () (.zeros 1) 4).1 = .ok summary ∧
      summary.finished = true ∧ summary.iterations = 2 ∧ summary.state = { advanced with finished := true } := by
  have calm : method.Undisturbed tight (boxed 1) (.none : Watch ℝ Unit) (.zeros 1) () () 4 :=
    undisturbed rfl tight_valid (Objective.halfSquare_conforming 1) (boxed_conforming 1)
  have last := lastIndex_tight 4 (by decide)
  obtain ⟨h, _, returned, _⟩ := (Method.run_follows calm tight_valid).2 _ () (last ▸ after_advanced)
  exact ⟨_, returned, rfl, last, rfl⟩

/-- The certificate of the run in a box, which has left its start. -/
theorem finished_nearly_optimal_boxed : ∃ summary values fx,
    (method.run tight (boxed 1) (.none : Watch ℝ Unit) () () (.zeros 1) 4).1 = .ok summary ∧
      summary.finished = true ∧ summary.state.point = .constant 1 (-0.0495) ∧
      (boxed 1).constraints.values summary.state.point = .ok values ∧ (∀ v ∈ values.toList, v < 0) ∧
      (boxed 1).objective.value summary.state.point = .ok fx ∧
      ∀ y, y.size = 1 → (boxed 1).constraints.feasible y = .ok true →
        ∃ fy d, (boxed 1).objective.value y = .ok fy ∧ summary.state.point.sub y = .ok d ∧
          fx ≤ fy + 0.1 + 0.1 * d.norm := by
  obtain ⟨summary, returned, finished, _, last⟩ := run_boxed
  obtain ⟨⟨values, atValues, _, negative⟩, fx, here, optimal⟩ := finished_nearly_optimal tight (boxed 1) .none ()
    (.zeros 1) 4 (Objective.halfSquare_conforming 1) (boxed_conforming 1) (boxed_convex 1).1
    (boxed_convex 1).2 summary
    returned finished
  exact ⟨summary, values, fx, returned, finished, last ▸ rfl, atValues, negative, here, optimal⟩

end Downhill.InteriorPoint
