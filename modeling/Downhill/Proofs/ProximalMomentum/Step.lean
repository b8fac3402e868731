import Mathlib
import Downhill.Method.ProximalMomentum
import Downhill.Proofs.Ranges
import Downhill.Proofs.Run.Trajectory
import Downhill.Proofs.Search.Majorization

namespace Downhill.ProximalMomentum

theorem validate_eq_ok {config : Config ℝ} :
    schema.validate config = .ok () ↔ (0 < config.beta ∧ config.beta < 1) ∧ 0 < config.eps := by
  simp [schema]

section

variable {α : Type} [Scalar α] {config : Config α} {p : Composite α} {s s' : State α} {n : Nat}

/-- What a step has computed on its way to the state it leads to. -/
structure Moves (config : Config α) (p : Composite α) (s : State α) (v : Coords α) (loss : α)
    (gradient : Coords α) (found : ProximalStep α) (s' : State α) : Prop where
  extrapolate_eq : extrapolate { s with counter := s.counter + 1 } = .ok v
  expand_eq : p.smooth.expand v = .ok (loss, gradient)
  search_eq : (Majorant.run p tag v loss gradient s.scale config.beta).outcome = .ok found
  point_eq : s'.point = found.point
  previous_eq : s'.previous = s.point
  scale_eq : s'.scale = found.scale
  counter_eq : s'.counter = s.counter + 1 ∨ config.restart = true ∧ s'.counter = 0
  finished_eq : ∃ change, found.point.sub v = .ok change ∧
    s'.finished = decide (change.norm ≤ found.scale * config.eps)

theorem step_cases (made : (step config p s).outcome = .ok s') :
    ∃ v loss gradient found, Moves config p s v loss gradient found s' := by
  simp only [step, Work.outcome_bind_eq_ok, Work.outcome_checked_eq_ok, Prod.exists] at made
  obtain ⟨v, atStart, loss, gradient, atExpansion, found, searched, change, apart, rest⟩ := made
  refine ⟨v, loss, gradient, found, ?_⟩
  split at rest
  · rename_i restart
    simp only [Work.outcome_bind_eq_ok, Work.outcome_checked_eq_ok] at rest
    obtain ⟨up, _, rest⟩ := rest
    cases up with
    | true =>
      simp only [if_true, Work.outcome_bind_eq_ok] at rest
      obtain ⟨_, _, done⟩ := rest
      cases done
      exact ⟨atStart, atExpansion, searched, rfl, rfl, rfl, Or.inr ⟨restart, rfl⟩, change, apart, rfl⟩
    | false =>
      cases rest
      exact ⟨atStart, atExpansion, searched, rfl, rfl, rfl, Or.inl rfl, change, apart, rfl⟩
  · cases rest
    exact ⟨atStart, atExpansion, searched, rfl, rfl, rfl, Or.inl rfl, change, apart, rfl⟩

/-- Of what a step does only its search can run out of shrinks. -/
theorem exhausted_step : Majorant.Exhausted (step config p s) ↔ ∃ v loss gradient,
    extrapolate { s with counter := s.counter + 1 } = .ok v ∧ p.smooth.expand v = .ok (loss, gradient) ∧
      Majorant.Exhausted (Majorant.run p tag v loss gradient s.scale config.beta) := by
  simp only [step, Majorant.exhausted_bind, Majorant.not_exhausted_checked, Work.outcome_checked_eq_ok, false_or,
    Prod.exists]
  constructor
  · rintro ⟨v, atStart, loss, gradient, expanded, spent | ⟨found, _, change, _, spent⟩⟩
    · exact ⟨v, loss, gradient, atStart, expanded, spent⟩
    split at spent
    · rw [Majorant.exhausted_bind] at spent
      obtain spent | ⟨up, _, spent⟩ := spent
      · exact absurd spent (Majorant.not_exhausted_checked _)
      · cases up <;> simp [Majorant.Exhausted, Work.mem_events_bind] at spent
    · simp [Majorant.Exhausted] at spent
  · rintro ⟨v, loss, gradient, atStart, expanded, spent⟩
    exact ⟨v, atStart, loss, gradient, expanded, Or.inl spent⟩

theorem Moves.exhausted_iff {v gradient : Coords α} {loss : α} {found : ProximalStep α}
    (moves : Moves config p s v loss gradient found s') : Majorant.Exhausted (step config p s) ↔
      Majorant.Exhausted (Majorant.run p tag v loss gradient s.scale config.beta) := by
  rw [exhausted_step]
  constructor
  · rintro ⟨w, loss', gradient', atStart, expanded, spent⟩
    obtain rfl := Except.ok.inj (moves.extrapolate_eq.symm.trans atStart)
    obtain ⟨rfl, rfl⟩ := Prod.mk.inj (Except.ok.inj (moves.expand_eq.symm.trans expanded))
    exact spent
  · exact fun spent => ⟨v, loss, gradient, moves.extrapolate_eq, moves.expand_eq, spent⟩

theorem extrapolate_ok (size : s.point.size = n) (same : s.previous.size = n) :
    ∃ v, extrapolate s = .ok v ∧ v.size = n := by
  obtain ⟨d, apart, dSize⟩ := Coords.sub_ok size same
  have scaled : (d.scale (momentum s.counter)).size = n := (Coords.size_scale d _).trans dSize
  obtain ⟨v, added, vSize⟩ := Coords.add_ok size scaled
  exact ⟨v, by simp only [extrapolate, apart, added, bind, Except.bind], vSize⟩

/-- Once its search has come to an end, nothing else in a step can fail. -/
theorem step_ok_of_search {v gradient : Coords α} {loss : α} {found : ProximalStep α}
    (conforming : p.smooth.Conforming n) (size : s.point.size = n)
    (atStart : extrapolate { s with counter := s.counter + 1 } = .ok v) (vSize : v.size = n)
    (expanded : p.smooth.expand v = .ok (loss, gradient))
    (searched : (Majorant.run p tag v loss gradient s.scale config.beta).outcome = .ok found)
    (landed : found.point.size = n) : ∃ s', (step config p s).outcome = .ok s' := by
  obtain ⟨change, apart, _⟩ := Coords.sub_ok landed vSize
  obtain ⟨high, atFound⟩ := conforming.value found.point landed
  obtain ⟨low, atPoint⟩ := conforming.value s.point size
  have compared : wentUp p.smooth found.point s.point = .ok (decide (low < high)) := by
    simp only [wentUp, atFound, atPoint, bind, Except.bind]
    rfl
  let next (counter : Nat) : State α := ⟨found.point, s.point, found.scale, counter,
    decide (change.norm ≤ found.scale * config.eps)⟩
  simp only [step, Work.outcome_bind_eq_ok, Work.outcome_checked_eq_ok, Prod.exists]
  cases config.restart with
  | false => exact ⟨next (s.counter + 1), v, atStart, loss, gradient, expanded, found, searched, change,
      apart, rfl⟩
  | true =>
    simp only [if_true, Work.outcome_bind_eq_ok, Work.outcome_checked_eq_ok]
    cases up : decide (low < high) with
    | false => exact ⟨next (s.counter + 1), v, atStart, loss, gradient, expanded, found, searched, change,
        apart, false, up ▸ compared, rfl⟩
    | true => exact ⟨next 0, v, atStart, loss, gradient, expanded, found, searched, change, apart, true,
        up ▸ compared, rfl⟩

end

variable {config : Config ℝ} {p : Composite ℝ} {s s' : State ℝ} {n : Nat}

theorem vec_extrapolate {v : Coords ℝ} (made : extrapolate s = .ok v) (n : Nat) :
    v.vec n = s.point.vec n +
      (((s.counter : ℝ) - 2) / (s.counter + 1)) • (s.point.vec n - s.previous.vec n) := by
  simp only [extrapolate, Outcome.bind_eq_ok] at made
  obtain ⟨d, apart, added⟩ := made
  have share : (momentum s.counter : ℝ) = ((s.counter : ℝ) - 2) / (s.counter + 1) := by
    norm_num [momentum]
  rw [Coords.vec_add added, Coords.vec_scale, Coords.vec_sub apart, share]

/-- The point that a step extrapolates to, from both points of its state. -/
theorem vec_start {v : Coords ℝ} (made : extrapolate { s with counter := s.counter + 1 } = .ok v) (n : Nat) :
    v.vec n = s.point.vec n +
      (((s.counter : ℝ) - 1) / (s.counter + 2)) • (s.point.vec n - s.previous.vec n) := by
  rw [vec_extrapolate made]
  push_cast
  ring_nf

/-- Where the last two points are the same there is no displacement that could be added once more. -/
theorem extrapolate_of_still {v : Coords ℝ} (made : extrapolate s = .ok v) (still : s.previous = s.point) :
    v = s.point := by
  obtain ⟨_, _, added⟩ := Outcome.bind_eq_ok.mp made
  refine Coords.eq_of_vec (Coords.size_combine added).2 rfl ?_
  rw [vec_extrapolate made, still, sub_self, smul_zero, add_zero]

/-- Both points have the dimension of the problem, and the scale has not grown since the start. -/
structure Sized (n : Nat) (s : State ℝ) : Prop where
  size : s.point.size = n
  same : s.previous.size = n
  positive : 0 < s.scale
  most : s.scale ≤ 1

theorem sized_start {x : Coords ℝ} (size : x.size = n) : Sized n (.initial x) :=
  ⟨size, size, one_pos, le_rfl⟩

section

variable {h : ProximalTerm n} (conforming : p.smooth.Conforming n) (expands : p.smooth.Expands n)
  (proximal : h.IsExact p.prox)

include conforming expands proximal

theorem Moves.at {v gradient : Coords ℝ} {loss : ℝ} {found : ProximalStep ℝ}
    (moves : Moves config p s v loss gradient found s') (sized : Sized n s) :
    Majorant.At p h v loss gradient := by
  obtain ⟨w, atStart, wSize⟩ :=
    extrapolate_ok (s := { s with counter := s.counter + 1 }) sized.size sized.same
  obtain rfl : w = v := Except.ok.inj (atStart.symm.trans moves.extrapolate_eq)
  exact Majorant.at_of_expand conforming expands proximal wSize moves.expand_eq

variable (valid : schema.validate config = .ok ())

include valid

theorem step_ok (sized : Sized n s) : ∃ s', (step config p s).outcome = .ok s' := by
  obtain ⟨⟨above, below⟩, _⟩ := validate_eq_ok.mp valid
  obtain ⟨v, atStart, vSize⟩ :=
    extrapolate_ok (s := { s with counter := s.counter + 1 }) sized.size sized.same
  obtain ⟨loss, gradient, expanded, starts⟩ := Majorant.expand_ok conforming expands proximal vSize
  obtain ⟨found, searched⟩ := starts.run_ok sized.positive above tag
  obtain ⟨_, _, _, trial, _⟩ := starts.run_cases sized.positive above below.le searched
  exact step_ok_of_search conforming sized.size atStart vSize expanded searched trial.size

theorem Sized.step (sized : Sized n s) (made : (step config p s).outcome = .ok s') : Sized n s' := by
  obtain ⟨⟨above, below⟩, _⟩ := validate_eq_ok.mp valid
  obtain ⟨v, loss, gradient, found, moves⟩ := step_cases made
  have starts := moves.at conforming expands proximal sized
  obtain ⟨positive, shorter, fq, trial, _⟩ :=
    starts.run_cases sized.positive above below.le moves.search_eq
  refine ⟨moves.point_eq ▸ trial.size, moves.previous_eq ▸ sized.size, moves.scale_eq ▸ positive, ?_⟩
  exact moves.scale_eq ▸ shorter.trans sized.most

theorem sized_of_after {x : Coords ℝ} (size : x.size = n) {i : Nat}
    (reached : method.after config p x () i = .ok (s, ())) : Sized n s :=
  Method.after_invariant (m := method)
    (fun s started => by
      cases started
      exact sized_start size)
    (fun _ s s' sized made => Sized.step conforming expands proximal valid sized made) reached

/-- No search is exhausted on a smooth objective, if all shrinks together lead from one to a scale that
is small enough. -/
theorem never_exhausted {L : ℝ} (smooth : p.smooth.Smooth L n) (nonneg : 0 ≤ L)
    (small : config.beta ^ Majorant.maxShrinks * L ≤ 1) {x : Coords ℝ} (size : x.size = n) {i : Nat}
    (reached : method.after config p x () i = .ok (s, ())) : ¬ Majorant.Exhausted (step config p s) := by
  obtain ⟨⟨above, below⟩, _⟩ := validate_eq_ok.mp valid
  have sized := sized_of_after conforming expands proximal valid size reached
  obtain ⟨s', made⟩ := step_ok conforming expands proximal valid sized
  obtain ⟨v, loss, gradient, found, moves⟩ := step_cases made
  have starts := moves.at conforming expands proximal sized
  intro spent
  refine starts.not_exhausted sized.positive above smooth ?_ (moves.exhausted_iff.mp spent)
  refine le_trans (mul_le_mul_of_nonneg_right ?_ nonneg) small
  exact mul_le_of_le_one_left (pow_nonneg above.le _) sized.most

end

end Downhill.ProximalMomentum
