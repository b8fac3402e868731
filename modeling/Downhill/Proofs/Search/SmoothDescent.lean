import Mathlib
import Downhill.Proofs.Affine
import Downhill.Proofs.Search.Descent

namespace Downhill.Armijo

variable {search : Armijo ℝ} {f : Objective ℝ} {x d g : Coords ℝ} {n : Nat} {L v slope : ℝ}

/-- The length up to which a smooth objective is low enough along a direction. -/
noncomputable def reach (search : Armijo ℝ) (n : Nat) (d : Coords ℝ) (L slope : ℝ) : ℝ :=
  2.0 * (1 - search.fraction) * -slope / (L * (d.vec n ⬝ᵥ d.vec n))

theorem reach_eq (search : Armijo ℝ) (n : Nat) (d : Coords ℝ) (L slope : ℝ) :
    search.reach n d L slope = 2 * (1 - search.fraction) * -slope / (L * (d.vec n ⬝ᵥ d.vec n)) := by
  have two : (2.0 : ℝ) = 2 := by norm_num
  rw [reach, two]

/-- Along a direction of any slope the objective bends. -/
theorem curved_of_slope (large : 0 < L) (steep : slope = g.vec n ⬝ᵥ d.vec n) (descends : slope < 0) :
    0 < L * (d.vec n ⬝ᵥ d.vec n) := by
  refine mul_pos large ((dotProduct_self_star_nonneg (d.vec n)).lt_of_ne' fun still => ?_)
  rw [dotProduct_self_eq_zero.mp still, dotProduct_zero] at steep
  exact descends.ne steep

section

variable (smooth : f.Smooth L n) (large : 0 < L) (dimension : x.size = n) (here : f.value x = .ok v)
  (atGradient : f.gradient x = .ok g) (steep : slope = g.vec n ⬝ᵥ d.vec n) (descends : slope < 0)

include smooth large dimension here atGradient steep descends

/-- A trial within reach is accepted. -/
theorem attempt_of_reach (conforming : f.Conforming n) (size : d.size = n) {t : ℝ} (nonneg : 0 ≤ t)
    (within : t ≤ search.reach n d L slope) : ∃ w, search.attempt f x d v slope t = .ok (w, true) := by
  obtain ⟨y, moved, fits⟩ := Coords.add_ok dimension ((Coords.size_scale d t).trans size)
  obtain ⟨w, there⟩ := conforming.value y fits
  have short := (le_div_iff₀ (curved_of_slope large steep descends)).mp (within.trans_eq (reach_eq ..))
  exact ⟨w, attempt_eq_ok.mpr ⟨y, moved, there,
    decide_eq_true (sufficient_of_short smooth dimension here atGradient steep nonneg short moved there)⟩⟩

/-- A search whose last trial is within reach is not exhausted. -/
theorem satisfied_of_reach {found : Outcome ℝ} (first : 0 < search.initial) (shrinks : 0 < search.factor)
    (within : search.initial * search.factor ^ maxShrinks ≤ search.reach n d L slope)
    (searched : (search.run f x v d slope).outcome = .ok found) : found.exhausted = false := by
  obtain ⟨last, ended, rfl⟩ := run_eq_ok.mp searched
  have ends := Backtracking.run_endsAt ended
  by_contra exhausted
  have refused : last.accepted = false := by simpa using exhausted
  obtain ⟨y, moved, there, high⟩ := attempt_eq_ok.mp ends.trial
  have step : last.step = search.initial * search.factor ^ maxShrinks := by
    rw [ends.step, ends.used refused, Backtracking.trialStep_eq]
  have positive : 0 ≤ last.step := step ▸ (mul_pos first (pow_pos shrinks _)).le
  have short := (le_div_iff₀ (curved_of_slope large steep descends)).mp
    ((step.trans_le within).trans_eq (reach_eq ..))
  exact of_decide_eq_false (high.trans refused)
    (sufficient_of_short smooth dimension here atGradient steep positive short moved there)

end

/-- Along a direction in which a smooth objective falls every trial at a step within reach is accepted; so if the
last trial allowed is within reach, the search is not exhausted, its step is no smaller than the first one or a
shrink of the reach, and its value is lower by the required share of what the slope promises. -/
theorem succeeds_within_reach (search : Armijo ℝ) (conforming : f.Conforming n) (smooth : f.Smooth L n)
    (large : 0 < L) (dimension : x.size = n) (size : d.size = n) (here : f.value x = .ok v)
    (atGradient : f.gradient x = .ok g) (steep : slope = g.vec n ⬝ᵥ d.vec n) (descends : slope < 0)
    (positive : 0 < search.fraction) (shrinks : 0 < search.factor) (first : 0 < search.initial) :
    (∀ t, 0 ≤ t → t ≤ search.reach n d L slope → ∃ w, search.attempt f x d v slope t = .ok (w, true)) ∧
    (search.initial * search.factor ^ 100 ≤ search.reach n d L slope →
      ∃ found, (search.run f x v d slope).outcome = .ok found ∧ found.exhausted = false ∧
        min search.initial (search.factor * search.reach n d L slope) ≤ found.step ∧
        found.value ≤ v + search.fraction * found.step * slope ∧ v + search.fraction * found.step * slope < v) := by
  refine ⟨fun t => attempt_of_reach smooth large dimension here atGradient steep descends conforming size,
    fun within => ?_⟩
  obtain ⟨found, searched⟩ := run_ok conforming dimension size search v slope
  have satisfied := satisfied_of_reach smooth large dimension here atGradient steep descends first shrinks within
    searched
  have curved := curved_of_slope large steep descends
  have gain := mul_neg_of_pos_of_neg (mul_pos positive (step_pos first shrinks searched)) descends
  have long := step_ge smooth dimension here atGradient steep curved first shrinks searched
  rw [← reach_eq] at long
  exact ⟨found, searched, satisfied, long, sufficient_of_run searched satisfied, by linarith⟩

/-- Straight down a slanted valley, a search that starts far too long succeeds. -/
theorem succeeds_within_reach_slanted : ∃ v g slope found, Objective.slanted.value (.constant 2 1) = .ok v ∧
    Objective.slanted.gradient (.constant 2 1) = .ok g ∧ slope = g.vec 2 ⬝ᵥ g.neg.vec 2 ∧
    (Armijo.run ⟨1 / 2, 1 / 2, 8⟩ Objective.slanted (.constant 2 1) v g.neg slope).outcome = .ok found ∧
    found.exhausted = false ∧ 1 / 8 ≤ found.step ∧ found.value < v := by
  have size : (Coords.constant 2 (1 : ℝ)).size = 2 := Coords.size_constant 2 1
  obtain ⟨v, here⟩ := Objective.slanted_conforming.value _ size
  obtain ⟨g, atGradient, gSize⟩ := Objective.slanted_conforming.gradient _ size
  have slopes := Objective.slanted_gradient_ones atGradient
  have steep : g.vec 2 ⬝ᵥ g.neg.vec 2 = -13 := by
    rw [Coords.vec_neg, slopes]
    norm_num [dotProduct, Fin.sum_univ_two]
  have reached : Armijo.reach ⟨1 / 2, 1 / 2, 8⟩ 2 g.neg 4 (-13) = 1 / 4 := by
    rw [reach_eq, Coords.vec_neg, neg_dotProduct_neg, slopes]
    norm_num [dotProduct, Fin.sum_univ_two]
  obtain ⟨_, succeeds⟩ :=
    succeeds_within_reach ⟨1 / 2, 1 / 2, 8⟩ Objective.slanted_conforming Objective.slanted_smooth
    four_pos size ((Coords.size_neg g).trans gSize) here atGradient steep.symm (by norm_num) (by norm_num)
    (by norm_num) (by norm_num)
  rw [reached] at succeeds
  obtain ⟨found, searched, satisfied, step, low, falls⟩ := succeeds (by norm_num)
  refine ⟨v, g, -13, found, here, atGradient, steep.symm, searched, satisfied, ?_, low.trans_lt falls⟩
  norm_num at step
  linarith

end Downhill.Armijo
