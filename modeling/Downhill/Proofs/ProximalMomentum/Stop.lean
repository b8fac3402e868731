import Downhill.Proofs.ProximalMomentum.Step
import Downhill.Proofs.Run.Loop

namespace Downhill.ProximalMomentum

variable {n : Nat} {config : Config ℝ} {p : Composite ℝ} {h : ProximalTerm n} {s s' : State ℝ}

/-- The point is proximal behind a gradient step from `v`, from which it is within the tolerance. -/
structure Stopped (config : Config ℝ) (p : Composite ℝ) (h : ProximalTerm n) (v gradient : Coords ℝ) (t : ℝ)
    (q : Coords ℝ) : Prop where
  start : v.size = n
  size : q.size = n
  slope : p.smooth.gradient v = .ok gradient
  positive : 0 < t
  most : t ≤ 1
  near : h.Nearest t (v.vec n + -t • gradient.vec n) (q.vec n)
  close : √(sqDist (q.vec n) (v.vec n)) ≤ t * config.eps

section

variable (conforming : p.smooth.Conforming n) (expands : p.smooth.Expands n)
  (proximal : h.IsExact p.prox)

include conforming expands proximal

theorem stopped_of_step (valid : schema.validate config = .ok ()) (sized : Sized n s)
    (made : (step config p s).outcome = .ok s') (finished : s'.finished = true) :
    ∃ v gradient t, Stopped config p h v gradient t s'.point := by
  obtain ⟨⟨above, below⟩, _⟩ := validate_eq_ok.mp valid
  obtain ⟨v, loss, gradient, found, moves⟩ := step_cases made
  have starts := moves.at conforming expands proximal sized
  obtain ⟨positive, shorter, fq, trial, _⟩ :=
    starts.run_cases sized.positive above below.le moves.search_eq
  obtain ⟨change, apart, marked⟩ := moves.finished_eq
  have within : change.norm ≤ found.scale * config.eps := of_decide_eq_true (marked.symm.trans finished)
  rw [Coords.norm_of_sub trial.size apart] at within
  rw [moves.point_eq]
  exact ⟨v, gradient, found.scale, starts.size, trial.size, starts.slope, positive, shorter.trans sized.most,
    trial.near, within⟩

/-- A run that has finished has stopped there. -/
theorem stopped_of_run {ρ : Type} {watch : Watch ℝ ρ} {records : ρ} {x : Coords ℝ} {budget : Nat}
    {summary : Summary ℝ (State ℝ) (budget + 1)} (size : x.size = n)
    (returned : (method.run config p watch () records x budget).1 = .ok summary)
    (finished : summary.finished = true) : ∃ v gradient t, Stopped config p h v gradient t summary.state.point := by
  have valid : schema.validate config = .ok () := Method.valid_of_run returned
  have result := Method.run_returned returned
  obtain ⟨_, last⟩ := result.reached
  have marked : summary.state.finished = true := result.finished.symm.trans finished
  cases count : summary.iterations with
  | zero =>
    rw [count] at last
    obtain ⟨started, _⟩ := Method.after_zero_eq_ok.mp last
    have initial : State.initial x = summary.state := Except.ok.inj started
    rw [← initial] at marked
    cases marked
  | succ i =>
    rw [count] at last
    obtain ⟨s, _, reached, made, _⟩ := Method.after_succ_eq_ok.mp last
    have sized := sized_of_after conforming expands proximal valid size reached
    exact stopped_of_step conforming expands proximal valid sized made marked

variable (valid : schema.validate config = .ok ())

include valid

/-- Without a recorder nothing disturbs a run on a conforming problem. -/
theorem undisturbed {ρ : Type} {watch : Watch ℝ ρ} (unrecorded : watch.recorder = none) {x : Coords ℝ}
    (size : x.size = n) {records : ρ} {budget : Nat} :
    method.Undisturbed config p watch x () records budget := by
  refine Method.undisturbed_of_unrecorded unrecorded fun i s _ reached quantity member => ?_
  have sized := sized_of_after conforming expands proximal valid size reached
  obtain rfl := List.mem_singleton.mp member
  exact conforming.value s.point sized.size

/-- A solve whose first step finishes ends with it. -/
theorem solve_of_first {x : Coords ℝ} (size : x.size = n) {budget : Nat} (allowed : 1 ≤ budget)
    (made : (step config p (.initial x)).outcome = .ok s) (finished : s.finished = true) :
    ∃ summary, (method.solve config p x budget).outcome = .ok summary ∧ summary.state = s ∧
      summary.finished = true := by
  have calm : method.Undisturbed config p (.none : Watch ℝ Unit) x () () budget :=
    undisturbed conforming expands proximal valid rfl size
  have start : method.after config p x () 0 = .ok (.initial x, ()) := Method.after_zero_eq_ok.mpr ⟨rfl, rfl⟩
  have reached : method.after config p x () 1 = .ok (s, ()) :=
    Method.after_succ_eq_ok.mpr ⟨.initial x, (), start, made, rfl⟩
  have last : method.lastIndex config p x () budget = 1 := by
    refine Method.lastIndex_eq allowed (fun i early => ?_)
      (Or.inl ((Method.finishedAfter_eq reached).trans finished))
    obtain rfl := Nat.lt_one_iff.mp early
    exact Method.finishedAfter_eq start
  obtain ⟨_, ended⟩ := Method.run_follows calm valid
  obtain ⟨_, _, returned, _⟩ := ended s () (last.symm ▸ reached)
  exact ⟨_, returned, rfl, finished⟩

end

/-- Over the orthant the first step finishes where the gradient is within the tolerance. -/
theorem finished_of_small_gradient (conforming : p.smooth.Conforming n) (expands : p.smooth.Expands n)
    (proximal : (ProximalTerm.orthant n).IsExact p.prox) (valid : schema.validate config = .ok ())
    {x gradient : Coords ℝ} (size : x.size = n) (inside : 0 ≤ x.vec n)
    (slope : p.smooth.gradient x = .ok gradient) (small : √(gradient.vec n ⬝ᵥ gradient.vec n) ≤ config.eps)
    (made : (step config p (.initial x)).outcome = .ok s) : s.finished = true := by
  obtain ⟨⟨above, below⟩, _⟩ := validate_eq_ok.mp valid
  obtain ⟨v, loss, other, found, moves⟩ := step_cases made
  have sized : Sized n (.initial x) := sized_start size
  have starts := moves.at conforming expands proximal sized
  obtain rfl : v = x := extrapolate_of_still moves.extrapolate_eq rfl
  obtain rfl := Except.ok.inj (slope.symm.trans starts.slope)
  obtain ⟨positive, _, fq, trial, _⟩ := starts.run_cases sized.positive above below.le moves.search_eq
  obtain ⟨change, apart, marked⟩ := moves.finished_eq
  rw [marked, decide_eq_true_eq, Coords.norm_of_sub trial.size apart]
  exact trial.close_of_small positive inside small

end Downhill.ProximalMomentum
