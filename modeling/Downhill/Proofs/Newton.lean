import Downhill.Method.Newton
import Downhill.Proofs.Elimination.Solution
import Downhill.Proofs.Ranges
import Downhill.Proofs.Run.Agreement
import Downhill.Proofs.Search.Descent

namespace Downhill.Newton

variable {α : Type} [Scalar α] {config : Config α} {f : Objective α} {s s' : PointState α}

/-- A step along the Newton direction by the step that the search found. -/
structure Moves (config : Config α) (f : Objective α) (s : PointState α) (value : α) (gradient : Coords α)
    (hessian : Table α) (d : Coords α) (slope : α) (found : Armijo.Outcome α) (s' : PointState α) :
    Prop where
  expand_eq : f.expand s.point = .ok (value, gradient)
  hessian_eq : f.hessian s.point = .ok hessian
  direction_eq : direction gradient hessian = .ok d
  slope_eq : gradient.dot d = .ok slope
  search_eq : (config.search.run f s.point value d slope).outcome = .ok found
  point_eq : s.point.advance found.step d = .ok s'.point
  finished_eq : s'.finished = s.finished

theorem step_eq_ok : (step config f s).outcome = .ok s' ↔ ∃ value gradient hessian d slope found,
    Moves config f s value gradient hessian d slope found s' := by
  simp only [step, Work.outcome_bind_eq_ok, Work.outcome_checked_eq_ok, Work.outcome_except_eq_ok,
    Work.outcome_note_bind, Work.outcome_pure_eq_ok, Prod.exists]
  constructor
  · rintro ⟨value, gradient, atExpand, hessian, atHessian, d, atDirection, slope, atSlope, found, searched,
      point, moved, rfl⟩
    exact ⟨value, gradient, hessian, d, slope, found, atExpand, atHessian, atDirection, atSlope, searched,
      moved, rfl⟩
  · rintro ⟨value, gradient, hessian, d, slope, found, moves⟩
    refine ⟨value, gradient, moves.expand_eq, hessian, moves.hessian_eq, d, moves.direction_eq, slope,
      moves.slope_eq, found, moves.search_eq, s'.point, moves.point_eq, ?_⟩
    rw [← moves.finished_eq]

theorem Moves.size_eq {value slope : α} {gradient d : Coords α} {hessian : Table α} {found : Armijo.Outcome α}
    (moves : Moves config f s value gradient hessian d slope found s') : s'.point.size = s.point.size :=
  (Coords.size_combine moves.point_eq).2

theorem size_of_step (made : (step config f s).outcome = .ok s') : s'.point.size = s.point.size := by
  obtain ⟨_, _, _, _, _, _, moves⟩ := step_eq_ok.mp made
  exact moves.size_eq

theorem size_after {x : Coords α} {k : Nat} (reached : method.after config f x () k = .ok (s, ())) :
    s.point.size = x.size := by
  have initial : ∀ s, (method.start config f x).outcome = .ok s → s.point.size = x.size := by
    intro s started
    cases started
    rfl
  have keeps : ∀ (drawn : Unit) (s s' : PointState α), s.point.size = x.size →
      (method.step config f drawn s).outcome = .ok s' → s'.point.size = x.size := by
    intro _ s s' same made
    exact (size_of_step made).trans same
  exact Method.after_invariant initial keeps reached

theorem unfinished (config : Config α) (f : Objective α) (x : Coords α) :
    ∀ k, method.finishedAfter config f x () k = false := by
  refine Method.unfinished_of_keeps (fun s started => ?_) fun _ s s' made => ?_
  · cases started
    rfl
  · obtain ⟨_, _, _, _, _, _, moves⟩ := step_eq_ok.mp made
    exact moves.finished_eq

theorem measured {n : Nat} (conforming : f.Conforming n) (fits : s.point.size = n) :
    ∀ quantity ∈ method.tracked f, ∃ v, quantity.2 s = .ok v :=
  Method.measured_gradient conforming rfl rfl fits

/-- There is a Newton direction at the point of a state. -/
def Solves (f : Objective α) (s : PointState α) : Prop :=
  ∃ gradient hessian d, f.gradient s.point = .ok gradient ∧ f.hessian s.point = .ok hessian ∧
    direction gradient hessian = .ok d

/-- There is a Newton direction at the point of each of the first states. -/
def Directed (config : Config α) (f : Objective α) (x : Coords α) (k : Nat) : Prop :=
  ∀ i < k, ∀ s, method.after config f x () i = .ok (s, ()) → Solves f s

/-- A step on a conforming objective does not fail where there is a direction. -/
theorem step_ok {n : Nat} (conforming : f.Conforming n) (expands : f.Expands n) (fits : s.point.size = n)
    {gradient d : Coords α} {hessian : Table α} (atGradient : f.gradient s.point = .ok gradient)
    (atHessian : f.hessian s.point = .ok hessian) (found : direction gradient hessian = .ok d)
    (size : d.size = n) : ∃ s', (step config f s).outcome = .ok s' := by
  obtain ⟨value, g, _, same, gSize, expanded⟩ := conforming.expand_ok expands fits
  obtain rfl := Except.ok.inj (same.symm.trans atGradient)
  have slope : g.dot d = .ok (g.pairing d) := if_pos (gSize.trans size.symm)
  obtain ⟨found', searched⟩ := Armijo.run_ok conforming fits size config.search value (g.pairing d)
  obtain ⟨y, moved, _⟩ := Coords.advance_ok fits size found'.step
  exact ⟨{ s with point := y }, step_eq_ok.mpr ⟨value, g, hessian, d, g.pairing d, found', expanded,
    atHessian, found, slope, searched, moved, rfl⟩⟩

section Exact

variable {config : Config ℝ} {f : Objective ℝ} {s s' : PointState ℝ} {n : Nat}

theorem validate_eq_ok {config : Config ℝ} : schema.validate config = .ok () ↔
    (0 < config.alpha ∧ config.alpha < 1) ∧ 0 < config.beta ∧ config.beta < 1 := by
  simp [schema]

theorem vec_direction {gradient d : Coords ℝ} {hessian : Table ℝ} (made : direction gradient hessian = .ok d)
    (high : hessian.height = n) : d.size = n ∧ (hessian.mat n n).mulVec (d.vec n) = -gradient.vec n := by
  obtain ⟨size, solved⟩ := mulVec_of_solve made high
  exact ⟨size, solved.trans (Coords.vec_neg gradient n)⟩

theorem solves_iff (conforming : f.Conforming n) (fits : s.point.size = n) {hessian : Table ℝ}
    (atHessian : f.hessian s.point = .ok hessian) (high : hessian.height = n) :
    Solves f s ↔ ∃ E, hessian.eliminate = some E := by
  constructor
  · rintro ⟨gradient, H, d, _, same, made⟩
    obtain rfl := Except.ok.inj (atHessian.symm.trans same)
    exact eliminate_of_solve made
  · rintro ⟨E, made⟩
    obtain ⟨gradient, atGradient, size⟩ := conforming.gradient s.point fits
    have same : hessian.height = gradient.neg.size := high.trans (size.symm.trans (Coords.size_neg gradient).symm)
    obtain ⟨d, _, solved, _⟩ := solve_of_eliminate made same "Newton direction"
    exact ⟨gradient, hessian, d, atGradient, atHessian, solved⟩

theorem directed_of_hessian {x : Coords ℝ} (conforming : f.Conforming x.size) {hessian : Table ℝ}
    (constant : ∀ z, z.size = x.size → f.hessian z = .ok hessian) (high : hessian.height = x.size)
    (factored : ∃ E, hessian.eliminate = some E) (k : Nat) : Directed config f x k :=
  fun _ _ s reached =>
    (solves_iff conforming (size_after reached) (constant s.point (size_after reached)) high).mpr factored

theorem step_ok_iff (conforming : f.Conforming n) (expands : f.Expands n) (fits : s.point.size = n)
    (high : ∀ H, f.hessian s.point = .ok H → H.height = n) :
    (∃ s', (step config f s).outcome = .ok s') ↔ Solves f s := by
  constructor
  · rintro ⟨s', made⟩
    obtain ⟨value, gradient, hessian, d, slope, found, moves⟩ := step_eq_ok.mp made
    obtain ⟨_, atGradient, _⟩ := conforming.of_expand expands fits moves.expand_eq
    exact ⟨gradient, hessian, d, atGradient, moves.hessian_eq, moves.direction_eq⟩
  · rintro ⟨gradient, hessian, d, atGradient, atHessian, made⟩
    exact step_ok conforming expands fits atGradient atHessian made (vec_direction made (high _ atHessian)).1

section

variable {x : Coords ℝ} (conforming : f.Conforming x.size) (expands : f.Expands x.size)
  (high : ∀ y H, y.size = x.size → f.hessian y = .ok H → H.height = x.size)

include conforming expands high

/-- The method comes as far as it finds directions. -/
theorem after_ok_iff (k : Nat) :
    (∃ s, method.after config f x () k = .ok (s, ())) ↔ Directed config f x k := by
  have ready : (∃ s between, method.after config f x () k = .ok (s, between)) ↔
      ∀ i < k, ∀ s between, method.after config f x () i = .ok (s, between) → Solves f s :=
    Method.after_ok_iff (fun s => s.point.size = x.size) (fun _ s => Solves f s) ⟨.initial x, rfl, rfl⟩
      (fun _ s s' same made => (size_of_step made).trans same)
      (fun _ s fits => step_ok_iff conforming expands fits fun H => high s.point H fits) k
  exact ⟨fun ⟨s, reached⟩ i early t here => ready.mp ⟨s, (), reached⟩ i early t () here, fun directed =>
    let ⟨s, _, reached⟩ := ready.mpr fun i early t _ here => directed i early t here
    ⟨s, reached⟩⟩

/-- A run without a recorder returns if and only if the method comes to the end of its budget. -/
theorem run_ok_iff {ρ : Type} {watch : Watch ℝ ρ} {records : ρ} {budget : Nat}
    (valid : schema.validate config = .ok ()) (unrecorded : watch.recorder = none) :
    (∃ summary, (method.run config f watch () records x budget).1 = .ok summary) ↔
      Directed config f x budget := by
  rw [← after_ok_iff conforming expands high, Method.run_ok_iff (m := method) valid unrecorded
    (fun i s _ reached => measured conforming (size_after reached)) (unfinished config f x)]
  exact ⟨fun ⟨s, _, reached⟩ => ⟨s, reached⟩, fun ⟨s, reached⟩ => ⟨s, (), reached⟩⟩

end

end Exact

end Downhill.Newton
