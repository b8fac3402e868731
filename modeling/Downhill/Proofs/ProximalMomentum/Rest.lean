import Downhill.Proofs.ProximalMomentum.Stop

namespace Downhill.ProximalMomentum

/-- With the gradient at the point, the proximal point behind the step of every positive scale is the point
itself. -/
structure Rests (p : Composite ℝ) (l slope : Coords ℝ) : Prop where
  slope_eq : p.smooth.gradient l = .ok slope
  still : ∀ t, 0 < t → Majorant.candidate p.prox l slope t = .ok l

/-- Both points are the one at which the method rests. -/
structure Resting (n : Nat) (l : Coords ℝ) (s : State ℝ) : Prop where
  sized : Sized n s
  here : s.point = l
  before : s.previous = l

section

variable {n : Nat} {config : Config ℝ} {p : Composite ℝ} {h : ProximalTerm n} {s : State ℝ} {l slope : Coords ℝ}
  (conforming : p.smooth.Conforming n) (expands : p.smooth.Expands n) (proximal : h.IsExact p.prox)
  (valid : schema.validate config = .ok ()) (rests : Rests p l slope)

include conforming expands proximal valid rests

theorem Resting.step (resting : Resting n l s) :
    ∃ s', (step config p s).outcome = .ok s' ∧ Resting n l s' ∧ s'.finished = true := by
  obtain ⟨⟨above, below⟩, tolerance⟩ := validate_eq_ok.mp valid
  obtain ⟨s', made⟩ := step_ok conforming expands proximal valid resting.sized
  obtain ⟨v, loss, gradient, found, moves⟩ := step_cases made
  have starts := moves.at conforming expands proximal resting.sized
  have size : l.size = n := resting.here ▸ resting.sized.size
  have still : s.previous = s.point := resting.before.trans resting.here.symm
  obtain rfl : v = l := (extrapolate_of_still moves.extrapolate_eq still).trans resting.here
  obtain rfl := Except.ok.inj (starts.slope.symm.trans rests.slope_eq)
  obtain ⟨positive, _⟩ := starts.run_cases resting.sized.positive above below.le moves.search_eq
  have landed : found.point = v := by
    obtain ⟨last, searched, rfl⟩ := Majorant.run_eq_ok.mp moves.search_eq
    have trial := Majorant.candidate_of_attempt (Backtracking.run_endsAt searched).trial
    exact Except.ok.inj (trial.symm.trans (rests.still last.step positive))
  obtain ⟨change, apart, marked⟩ := moves.finished_eq
  refine ⟨s', made, ⟨resting.sized.step conforming expands proximal valid made, moves.point_eq.trans landed,
    moves.previous_eq.trans resting.here⟩, ?_⟩
  rw [landed] at apart
  rw [marked, decide_eq_true_eq, Coords.norm_of_sub size apart, sqDist, sub_self, dotProduct_zero, Real.sqrt_zero]
  exact mul_nonneg positive.le tolerance.le

variable (size : l.size = n)

include size

theorem after_rest (k : Nat) :
    ∃ s, method.after config p l () k = .ok (s, ()) ∧ s.point = l ∧ (1 ≤ k → s.finished = true) := by
  have start : ∃ s, (method.start config p l).outcome = .ok s ∧ Resting n l s ∧ (1 ≤ 0 → s.finished = true) :=
    ⟨_, rfl, ⟨sized_start size, rfl, rfl⟩, nofun⟩
  obtain ⟨s, _, reached, resting, finished⟩ := Method.after_reaches
    (fun i s => Resting n l s ∧ (1 ≤ i → s.finished = true)) start (fun _ _ s kept =>
      have ⟨s', made, resting, finished⟩ := kept.1.step conforming expands proximal valid rests
      ⟨s', made, resting, fun _ => finished⟩) k
  exact ⟨s, reached, resting.here, finished⟩

theorem solve_rest {budget : Nat} (allowed : 1 ≤ budget) :
    ∃ summary, (method.solve config p l budget).outcome = .ok summary ∧ summary.state.point = l ∧
      summary.finished = true := by
  have resting : Resting n l (.initial l) := ⟨sized_start size, rfl, rfl⟩
  obtain ⟨s, made, resting', finished⟩ := resting.step conforming expands proximal valid rests
  obtain ⟨summary, solved, last, marked⟩ :=
    solve_of_first conforming expands proximal valid size allowed made finished
  exact ⟨summary, solved, last ▸ resting'.here, marked⟩

end

end Downhill.ProximalMomentum
