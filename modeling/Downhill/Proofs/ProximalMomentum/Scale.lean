import Mathlib
import Downhill.Proofs.ProximalMomentum.Landing

namespace Downhill.ProximalMomentum

section

variable {α : Type} [Scalar α]

/-- What the search of a step tries at a scale. -/
def attempt (p : Composite α) (s : State α) : Checked (α → Checked (Coords α × Bool)) := do
  let v ← extrapolate { s with counter := s.counter + 1 }
  let (loss, gradient) ← p.smooth.expand v
  return Majorant.attempt p v loss gradient

/-- How often the search of a step shrinks the scale, also where it comes to no end. -/
def shrinks (config : Config α) (p : Composite α) (s : State α) : Nat :=
  match attempt p s with
  | .ok trial => (Backtracking.tried trial config.beta Majorant.maxShrinks s.scale).length - 1
  | .error _ => 0

/-- How often the searches of the first steps shrink the scale, all together. -/
def shrinksAfter (config : Config α) (p : Composite α) (x : Coords α) : Nat → Nat
  | 0 => 0
  | i + 1 => shrinksAfter config p x i +
    match method.after config p x () i with
    | .ok (s, _) => shrinks config p s
    | .error _ => 0

variable {config : Config α} {p : Composite α} {x : Coords α} {s s' : State α}

theorem attempt_eq_ok {trial : α → Checked (Coords α × Bool)} : attempt p s = .ok trial ↔
    ∃ v loss gradient, extrapolate { s with counter := s.counter + 1 } = .ok v ∧
      p.smooth.expand v = .ok (loss, gradient) ∧ Majorant.attempt p v loss gradient = trial := by
  simp only [attempt, Outcome.bind_eq_ok, Outcome.pure_eq_ok, Prod.exists]
  constructor
  · rintro ⟨v, atStart, loss, gradient, expanded, same⟩
    exact ⟨v, loss, gradient, atStart, expanded, same⟩
  · rintro ⟨v, loss, gradient, atStart, expanded, same⟩
    exact ⟨v, atStart, loss, gradient, expanded, same⟩

theorem shrinks_eq {trial : α → Checked (Coords α × Bool)} (tries : attempt p s = .ok trial) :
    shrinks config p s = (Backtracking.tried trial config.beta Majorant.maxShrinks s.scale).length - 1 := by
  rw [shrinks, tries]

theorem shrinks_of_run {trial : α → Checked (Coords α × Bool)} {last : Backtracking α (Coords α)}
    (tries : attempt p s = .ok trial)
    (searched : Backtracking.run trial config.beta Majorant.maxShrinks s.scale = .ok last) :
    shrinks config p s = last.shrinks := by
  obtain ⟨_, count⟩ := Backtracking.resume_tried searched
  rw [shrinks_eq tries]
  omega

theorem shrinksAfter_succ {i : Nat} (reached : method.after config p x () i = .ok (s, ())) :
    shrinksAfter config p x (i + 1) = shrinksAfter config p x i + shrinks config p s := by
  rw [shrinksAfter, reached]

theorem shrinksAfter_mono (config : Config α) (p : Composite α) (x : Coords α) :
    Monotone (shrinksAfter config p x) :=
  monotone_nat_of_le_succ fun _ => Nat.le_add_right _ _

/-- A step has made its search, and has the scale and the point at which that ended. -/
theorem step_search (made : (step config p s).outcome = .ok s') : ∃ trial last, attempt p s = .ok trial ∧
    Backtracking.run trial config.beta Majorant.maxShrinks s.scale = .ok last ∧
    s'.point = last.trial ∧ s'.scale = last.step := by
  obtain ⟨v, loss, gradient, found, moves⟩ := step_cases made
  obtain ⟨last, searched, rfl⟩ := Majorant.run_eq_ok.mp moves.search_eq
  exact ⟨_, last, attempt_eq_ok.mpr ⟨v, loss, gradient, moves.extrapolate_eq, moves.expand_eq, rfl⟩, searched,
    moves.point_eq, moves.scale_eq⟩

end

variable {config : Config ℝ} {p : Composite ℝ} {x : Coords ℝ} {s s' : State ℝ} {n i J : Nat} {L : ℝ}

theorem step_scale (made : (step config p s).outcome = .ok s') :
    s'.scale = s.scale * config.beta ^ shrinks config p s := by
  obtain ⟨trial, last, tries, searched, _, scale⟩ := step_search made
  rw [scale, (Backtracking.run_endsAt searched).step, Backtracking.trialStep_eq, shrinks_of_run tries searched]

theorem scale_after (reached : method.after config p x () i = .ok (s, ())) :
    s.scale = config.beta ^ shrinksAfter config p x i := by
  induction i generalizing s with
  | zero =>
    cases reached
    rfl
  | succ i ih =>
    obtain ⟨before, _, earlier, made, _⟩ := Method.after_succ_eq_ok.mp reached
    rw [step_scale made, ih earlier, shrinksAfter_succ earlier, pow_add]

theorem size_extrapolate {v : Coords ℝ} (made : extrapolate s = .ok v) : v.size = s.point.size := by
  obtain ⟨d, _, added⟩ := Outcome.bind_eq_ok.mp made
  exact (Coords.size_combine added).2

theorem step_size (made : (step config p s).outcome = .ok s') : s'.point.size = s.point.size := by
  obtain ⟨trial, last, tries, searched, point, _⟩ := step_search made
  obtain ⟨v, loss, gradient, atStart, _, rfl⟩ := attempt_eq_ok.mp tries
  rw [point]
  exact (Majorant.attempt_cases (size_extrapolate atStart) (Backtracking.run_endsAt searched).trial).1

theorem size_after (reached : method.after config p x () i = .ok (s, ())) : s.point.size = x.size :=
  Method.after_invariant (m := method)
    (fun s started => by
      cases started
      rfl)
    (fun _ s s' same made => (step_size made).trans same) reached

section

variable (conforming : p.smooth.Conforming n) (expands : p.smooth.Expands n) (smooth : p.smooth.Smooth L n)
  (size : s.point.size = n)

include conforming expands smooth size

/-- Whatever the proximal map gives, the search of a step goes on only from a scale that is large. -/
theorem large_of_refused {trial : ℝ → Checked (Coords ℝ × Bool)} (tries : attempt p s = .ok trial) {t : ℝ}
    (positive : 0 < t) {q : Coords ℝ} (refused : trial t = .ok (q, false)) : 1 < t * L := by
  obtain ⟨v, loss, gradient, atStart, expanded, rfl⟩ := attempt_eq_ok.mp tries
  have vSize : v.size = n := (size_extrapolate atStart).trans size
  obtain ⟨here, slope, _⟩ := conforming.of_expand expands vSize expanded
  exact Majorant.large_of_refused smooth vSize here slope positive refused

variable (above : 0 < config.beta) (below : config.beta < 1) {j : Nat} (scale : s.scale = config.beta ^ j)
  (small : config.beta ^ J * L ≤ 1) (nonneg : 0 ≤ L)

include above below scale small nonneg

/-- So with the shrinks in front of a refused trial the scale has not come to one that is small enough. -/
theorem lt_of_refused {trial : ℝ → Checked (Coords ℝ × Bool)} (tries : attempt p s = .ok trial) {k : Nat}
    {q : Coords ℝ} (refused : trial (Backtracking.trialStep s.scale config.beta k) = .ok (q, false)) :
    j + k < J := by
  rw [Backtracking.trialStep_eq, scale, ← pow_add] at refused
  have large := large_of_refused conforming expands smooth size tries (pow_pos above _) refused
  by_contra many
  have shorter := pow_le_pow_of_le_one above.le below.le (not_lt.mp many)
  linarith [mul_le_mul_of_nonneg_right shorter nonneg]

theorem shrinks_le (within : j ≤ J) : j + shrinks config p s ≤ J := by
  cases tries : attempt p s with
  | error fault =>
    rw [shrinks, tries]
    exact within
  | ok trial =>
    rw [shrinks_eq tries]
    cases count : (Backtracking.tried trial config.beta Majorant.maxShrinks s.scale).length - 1 with
    | zero => exact within
    | succ k =>
      -- The last shrink came after a refused trial.
      have early : k + 1 < (Backtracking.tried trial config.beta Majorant.maxShrinks s.scale).length := by omega
      obtain ⟨q, refused⟩ := Backtracking.tried_refused early
      exact lt_of_refused conforming expands smooth size above below scale small nonneg tries refused

theorem not_exhausted (few : J ≤ Majorant.maxShrinks) : ¬ Majorant.Exhausted (step config p s) := by
  rw [exhausted_step]
  rintro ⟨v, loss, gradient, atStart, expanded, spent⟩
  obtain ⟨last, searched, unaccepted⟩ := Majorant.exhausted_run.mp spent
  have ends := Backtracking.run_endsAt searched
  have refused := ends.trial
  rw [unaccepted, ends.step, ends.used unaccepted] at refused
  have early := lt_of_refused conforming expands smooth size above below scale small nonneg
    (attempt_eq_ok.mpr ⟨v, loss, gradient, atStart, expanded, rfl⟩) refused
  omega

end

/-- So all searches together shrink no more often than it takes to come to a scale that is small enough. -/
theorem shrinksAfter_le (conforming : p.smooth.Conforming x.size) (expands : p.smooth.Expands x.size)
    (smooth : p.smooth.Smooth L x.size) (above : 0 < config.beta) (below : config.beta < 1)
    (small : config.beta ^ J * L ≤ 1) (nonneg : 0 ≤ L) (i : Nat) : shrinksAfter config p x i ≤ J := by
  -- On the steps; the scale that a search starts from says how many shrinks there were before it.
  induction i with
  | zero => exact Nat.zero_le J
  | succ i ih =>
    cases reached : method.after config p x () i with
    | error stop =>
      rw [shrinksAfter, reached]
      exact ih
    | ok state =>
      rw [shrinksAfter_succ reached]
      exact shrinks_le conforming expands smooth (size_after reached) above below (scale_after reached) small
        nonneg ih

/-- The first scale that is small enough is not much smaller than it has to be. -/
theorem floor_le_pow {beta bound : ℝ} (above : 0 < beta) (least : IsLeast {j : Nat | beta ^ j ≤ bound} J) :
    min 1 (beta * bound) ≤ beta ^ J := by
  have steps (j : Nat) : Backtracking.trialStep 1 beta j = beta ^ j :=
    (Backtracking.trialStep_eq 1 beta j).trans (one_mul _)
  rw [← steps]
  refine Backtracking.trialStep_ge above.le fun j before => (not_le.mp fun less => ?_).le
  rw [steps] at less
  exact not_lt.mpr (least.2 less) before

/-- The scale is the factor to the power of all shrinks so far, whatever becomes of the counter. On a smooth
objective there are never more of them in a run than lead from one to the inverse of the constant, so that the
scale stays above a constant and no search with that many shrinks is exhausted. -/
theorem carried_scale (config : Config ℝ) (p : Composite ℝ) (x : Coords ℝ) :
    Monotone (shrinksAfter config p x) ∧
    (∀ i s, method.after config p x () i = .ok (s, ()) → s.scale = config.beta ^ shrinksAfter config p x i) ∧
    (∀ i s s', method.after config p x () i = .ok (s, ()) → (step config p s).outcome = .ok s' →
      s'.scale = s.scale * config.beta ^ shrinks config p s ∧
      shrinksAfter config p x (i + 1) = shrinksAfter config p x i + shrinks config p s) ∧
    ∀ L, schema.validate config = .ok () → p.smooth.Conforming x.size → p.smooth.Expands x.size → 0 < L →
      p.smooth.Smooth L x.size → ∃ J, IsLeast {j : Nat | config.beta ^ j ≤ 1 / L} J ∧
        (∀ i, shrinksAfter config p x i ≤ J) ∧
        ∀ i s, method.after config p x () i = .ok (s, ()) → min 1 (config.beta / L) ≤ s.scale ∧
          (J ≤ 10000 → ¬ Majorant.Exhausted (step config p s)) := by
  refine ⟨shrinksAfter_mono config p x, fun i s => scale_after, fun i s s' reached made =>
    ⟨step_scale made, shrinksAfter_succ reached⟩, fun L valid conforming expands large smooth => ?_⟩
  obtain ⟨⟨above, below⟩, _⟩ := validate_eq_ok.mp valid
  have found : ∃ j : Nat, config.beta ^ j ≤ 1 / L := by
    obtain ⟨j, less⟩ := exists_pow_lt_of_lt_one (one_div_pos.mpr large) below
    exact ⟨j, less.le⟩
  have least := isLeast_csInf (s := {j : Nat | config.beta ^ j ≤ 1 / L}) found
  have small := (le_div_iff₀ large).mp least.1
  have within := shrinksAfter_le conforming expands smooth above below small large.le
  refine ⟨_, least, within, fun i s reached => ⟨?_, ?_⟩⟩
  · have floor := floor_le_pow above least
    rw [mul_one_div] at floor
    rw [scale_after reached]
    exact floor.trans (pow_le_pow_of_le_one above.le below.le (within i))
  · exact not_exhausted conforming expands smooth (size_after reached) above below (scale_after reached) small
      large.le

/-- Twice the squared length where no coordinate is negative. -/
noncomputable def steep (n : Nat) : Composite ℝ :=
  ⟨.quadratic ((Table.identity n).scale 4.0) (.zeros n), .nonnegative⟩

/-- Three steps from one towards zero, with restarts. -/
theorem carried_scale_steep : ∃ s : State ℝ,
    method.after ⟨true, 0.5, 0.1⟩ (steep 1) (.constant 1 1) () 3 = .ok (s, ()) ∧
      s.scale = 0.5 ^ shrinksAfter ⟨true, 0.5, 0.1⟩ (steep 1) (.constant 1 1) 3 ∧
      shrinksAfter ⟨true, 0.5, 0.1⟩ (steep 1) (.constant 1 1) 3 ≤ 2 ∧ 0.125 ≤ s.scale ∧
      ¬ Majorant.Exhausted (step ⟨true, 0.5, 0.1⟩ (steep 1) s) := by
  have valid : schema.validate (⟨true, 0.5, 0.1⟩ : Config ℝ) = .ok () := validate_eq_ok.mpr (by norm_num)
  have high : ((Table.identity 1).scale 4.0 : Table ℝ).height = 1 :=
    (Table.height_ofFn _ _ _).trans (Table.height_identity 1)
  have wide : ((Table.identity 1).scale 4.0 : Table ℝ).width = 1 := rfl
  have form : ((Table.identity 1).scale 4.0 : Table ℝ).mat 1 1 = (4 : ℝ) • 1 := by
    rw [Table.mat_scale (Table.height_identity 1) (Table.width_identity 1), Table.mat_identity]
    norm_num
  have conforming : (steep 1).smooth.Conforming 1 :=
    Objective.quadratic_conforming high wide (Coords.size_constant _ _)
  have expands : (steep 1).smooth.Expands 1 := Objective.quadratic_expands _ _ 1
  have smooth : (steep 1).smooth.Smooth 4 1 :=
    Objective.quadratic_smooth high wide (by simp [form]) fun d => by simp [form, Matrix.smul_mulVec]
  have lands := Proximal.nonnegative_lands (fun v : ℝ => Scalar.atLeast_exact 0 v ▸ le_max_left 0 v) 1
  have inside : ∀ v ∈ (Coords.constant 1 (1 : ℝ)).toList, 0 ≤ v := by simp [Coords.constant, Coords.toList]
  obtain ⟨s, _, reached, _⟩ : ∃ (s : State ℝ) (source : Unit),
      method.after ⟨true, 0.5, 0.1⟩ (steep 1) (.constant 1 1) () 3 = .ok (s, source) ∧ _ :=
    (unfailing conforming expands lands (Coords.size_constant 1 1) inside).reached () 3
  obtain ⟨_, power, _, bounded⟩ := carried_scale ⟨true, 0.5, 0.1⟩ (steep 1) (.constant 1 1)
  obtain ⟨J, least, within, floor⟩ := bounded 4 valid conforming expands (by norm_num) smooth
  have few : J ≤ 2 := least.2 (show (0.5 : ℝ) ^ 2 ≤ 1 / 4 by norm_num)
  obtain ⟨above, ample⟩ := floor 3 s reached
  refine ⟨s, reached, power 3 s reached, (within 3).trans few, ?_, ample (by omega)⟩
  norm_num at above
  linarith

end Downhill.ProximalMomentum
