import Mathlib
import Downhill.Method.GradientDescent
import Downhill.Proofs.Problems
import Downhill.Proofs.Run.Semantics

namespace Downhill.GradientDescent

variable {α ρ : Type} [Scalar α] (config : Config α) {f : Objective α} {n : Nat}

theorem step_ok (conforming : f.Conforming n) {s : PointState α} (size : s.point.size = n) :
    ∃ s', step config f s = .ok s' ∧ s'.point.size = n ∧ s'.finished = s.finished := by
  obtain ⟨g, atGradient, gSize⟩ := conforming.gradient s.point size
  have fits : s.point.size = (direction g).size := by
    rw [direction, Coords.neg, Coords.size_map, gSize, size]
  obtain ⟨x, moved, xSize⟩ := Coords.combine_ok (fun v w => v + config.rate * w) fits
  have atPoint : move config s.point g = .ok x := moved
  exact ⟨{ s with point := x }, by simp only [step, atGradient, bind, Except.bind, atPoint]; rfl,
    xSize.trans size, rfl⟩

/-- After every number of steps there is a state of the dimension of the start, and it is not
finished. -/
theorem after_ok (conforming : f.Conforming n) {x : Coords α} (size : x.size = n) (i : Nat) :
    ∃ s, method.after config f x () i = .ok (s, ()) ∧ s.point.size = n ∧ s.finished = false := by
  induction i with
  | zero => exact ⟨.initial x, rfl, size, rfl⟩
  | succ i ih =>
    obtain ⟨s, reached, fits, unfinished⟩ := ih
    obtain ⟨s', made, fits', same⟩ := step_ok config conforming fits
    refine ⟨s', Method.after_succ_eq_ok.mpr ⟨s, (), reached, ?_, rfl⟩, fits', same.trans unfinished⟩
    exact Work.outcome_checked_eq_ok.mpr made

theorem lastIndex_eq_budget (conforming : f.Conforming n) {x : Coords α} (size : x.size = n)
    (budget : Nat) : method.lastIndex config f x () budget = budget := by
  refine Method.lastIndex_eq (Nat.le_refl _) (fun i _ => ?_) (Or.inr rfl)
  obtain ⟨s, reached, _, unfinished⟩ := after_ok config conforming size i
  exact (Method.finishedAfter_eq reached).trans unfinished

theorem measured (conforming : f.Conforming n) {s : PointState α} (size : s.point.size = n) :
    ∀ quantity ∈ method.tracked f, ∃ v, quantity.2 s = .ok v :=
  Method.measured_gradient conforming rfl rfl size

end Downhill.GradientDescent
