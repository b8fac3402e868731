import Mathlib
import Downhill.Proofs.Search.Majorization

namespace Downhill.Majorant

section

variable {α : Type} [Scalar α] {p : Composite α} {tag : String} {v gradient : Coords α} {loss initial factor : α}

/-- What a search notes and hands back is read off the trial it ended with. -/
theorem run_of_searched {last : Backtracking α (Coords α)}
    (searched : Backtracking.run (attempt p v loss gradient) factor maxShrinks initial = .ok last) :
    run p tag v loss gradient initial factor =
      ⟨if last.accepted then [] else [.proximalExhausted tag last.shrinks last.step],
      .ok ⟨last.trial, last.step⟩⟩ := by
  obtain ⟨t, q, shrinks, accepted⟩ := last
  unfold run
  rw [searched]
  cases accepted <;> rfl

end

/-- The trial at a scale: the proximal point behind the gradient step of that scale, and the value there. -/
structure Tries (p : Composite ℝ) (n : Nat) (v gradient : Coords ℝ) (t : ℝ) (q : Coords ℝ) (fq : ℝ) : Prop where
  size : q.size = n
  value_eq : p.smooth.value q = .ok fq
  candidate_eq : ∃ u, u.size = n ∧ u.vec n = v.vec n - t • gradient.vec n ∧ p.prox u t = .ok q

/-- At `q` the quadratic model at `v` lies above the objective. -/
def ModelAbove (n : Nat) (v : Coords ℝ) (loss : ℝ) (gradient : Coords ℝ) (t : ℝ) (q : Coords ℝ) (fq : ℝ) : Prop :=
  fq ≤ loss + gradient.vec n ⬝ᵥ (q.vec n - v.vec n) + sqDist (q.vec n) (v.vec n) / (2.0 * t)

variable {n : Nat} {p : Composite ℝ} {v gradient q : Coords ℝ} {loss t fq L initial factor : ℝ}

/-- Multiplying the inequality by a positive scale changes nothing. -/
theorem majorizes_iff (positive : 0 < t) :
    Majorizes n v loss gradient t q fq ↔ ModelAbove n v loss gradient t q fq := by
  unfold Majorizes ModelAbove
  have scaled : t * loss + t * (gradient.vec n ⬝ᵥ (q.vec n - v.vec n)) + 0.5 * sqDist (q.vec n) (v.vec n) =
      t * (loss + gradient.vec n ⬝ᵥ (q.vec n - v.vec n) + sqDist (q.vec n) (v.vec n) / (2.0 * t)) := by
    have two : (2.0 : ℝ) = 2 := by norm_num
    have half : (0.5 : ℝ) = 1 / 2 := by norm_num
    rw [two, half]
    field_simp
  rw [scaled, mul_le_mul_iff_right₀ positive]

/-- Whatever the proximal map, at a positive scale a trial is made, and accepted where the model lies above. -/
theorem attempt_tries (size : v.size = n) (same : gradient.size = n)
    (values : ∀ y, y.size = n → ∃ fy, p.smooth.value y = .ok fy)
    (lands : ∀ u t, u.size = n → 0 < t → ∃ q, p.prox u t = .ok q ∧ q.size = n) (loss : ℝ) (positive : 0 < t) :
    ∃ q fq, Tries p n v gradient t q fq ∧ ∃ accepted, attempt p v loss gradient t = .ok (q, accepted) ∧
      (accepted = true ↔ ModelAbove n v loss gradient t q fq) := by
  obtain ⟨u, moved, uSize⟩ := Coords.advance_ok size same (-t)
  obtain ⟨q, found, qSize⟩ := lands u t uSize positive
  obtain ⟨fq, atValue⟩ := values q qSize
  obtain ⟨accepted, made⟩ := attempt_of_candidate size same moved found qSize atValue
  refine ⟨q, fq, ⟨qSize, atValue, u, uSize, ?_, found⟩, accepted, made, ?_⟩
  · rw [Coords.vec_advance moved, neg_smul, sub_eq_add_neg]
  · rw [accepted_iff size atValue made, majorizes_iff positive]

/-- The search takes the first of the trials allowed whose model lies above, or the last one, with a warning. -/
theorem run_first (size : v.size = n) (same : gradient.size = n)
    (values : ∀ y, y.size = n → ∃ fy, p.smooth.value y = .ok fy)
    (lands : ∀ u t, u.size = n → 0 < t → ∃ q, p.prox u t = .ok q ∧ q.size = n) (loss : ℝ) (positive : 0 < initial)
    (above : 0 < factor) (tag : String) : ∃ (point : Nat → Coords ℝ) (value : Nat → ℝ),
      (∀ j, Tries p n v gradient (initial * factor ^ j) (point j) (value j)) ∧
      ((∃ j, IsLeast {i | i ≤ 10000 ∧
            ModelAbove n v loss gradient (initial * factor ^ i) (point i) (value i)} j ∧
          run p tag v loss gradient initial factor = ⟨[], .ok ⟨point j, initial * factor ^ j⟩⟩) ∨
        (∀ j ≤ 10000, ¬ ModelAbove n v loss gradient (initial * factor ^ j) (point j) (value j)) ∧
          run p tag v loss gradient initial factor =
            ⟨[.proximalExhausted tag 10000 (initial * factor ^ 10000)],
              .ok ⟨point 10000, initial * factor ^ 10000⟩⟩) := by
  choose point value tries answered using fun j : Nat =>
    attempt_tries size same values lands loss (mul_pos positive (pow_pos above j))
  refine ⟨point, value, tries, ?_⟩
  simp only [← Backtracking.trialStep_eq] at answered ⊢
  rcases Backtracking.run_first answered maxShrinks with ⟨j, least, searched⟩ | ⟨never, searched⟩
  · exact Or.inl ⟨j, least, run_of_searched searched⟩
  · exact Or.inr ⟨never, run_of_searched searched⟩

/-- Where every small enough scale is accepted, the first one accepted is smaller by a shrink at most. -/
theorem scale_ge_of_first {Good : Nat → Prop} (positive : 0 < factor)
    (accepts : ∀ j, initial * factor ^ j ≤ 1 / L → Good j) {k : Nat} (early : ∀ i < k, ¬ Good i) :
    min initial (factor / L) ≤ initial * factor ^ k := by
  rw [div_eq_mul_one_div, ← Backtracking.trialStep_eq]
  refine Backtracking.trialStep_ge positive.le fun i before =>
    (not_le.mp fun small => early i before (accepts i ?_)).le
  rwa [← Backtracking.trialStep_eq]

/-- A proximal search takes the first of the 10001 scales allowed whose model lies above the objective at its
proximal point, and notes nothing, or else the last, with one warning. Against a smooth objective every scale
up to the inverse of the constant is accepted, and no scale taken is much below it. -/
theorem takes_first_majorizing (p : Composite ℝ) (tag : String) (v : Coords ℝ) (loss : ℝ) (gradient : Coords ℝ)
    (initial factor : ℝ) (size : v.size = n) (same : gradient.size = n)
    (values : ∀ y, y.size = n → ∃ fy, p.smooth.value y = .ok fy)
    (lands : ∀ u t, u.size = n → 0 < t → ∃ q, p.prox u t = .ok q ∧ q.size = n)
    (positive : 0 < initial) (above : 0 < factor) (shrinks : factor < 1) :
    ∃ (point : Nat → Coords ℝ) (value : Nat → ℝ),
      (∀ j, Tries p n v gradient (initial * factor ^ j) (point j) (value j)) ∧
      ((∃ j, IsLeast {i | i ≤ 10000 ∧
            ModelAbove n v loss gradient (initial * factor ^ i) (point i) (value i)} j ∧
          run p tag v loss gradient initial factor = ⟨[], .ok ⟨point j, initial * factor ^ j⟩⟩) ∨
        (∀ j ≤ 10000, ¬ ModelAbove n v loss gradient (initial * factor ^ j) (point j) (value j)) ∧
          run p tag v loss gradient initial factor =
            ⟨[.proximalExhausted tag 10000 (initial * factor ^ 10000)],
              .ok ⟨point 10000, initial * factor ^ 10000⟩⟩) ∧
      ∃ found fq, (run p tag v loss gradient initial factor).outcome = .ok found ∧
        p.smooth.value found.point = .ok fq ∧ 0 < found.scale ∧ found.scale ≤ initial ∧
        ((run p tag v loss gradient initial factor).events = [] →
          ModelAbove n v loss gradient found.scale found.point fq) ∧
        ∀ L, 0 < L →
          (∀ y fy, y.size = n → p.smooth.value y = .ok fy →
            fy ≤ loss + gradient.vec n ⬝ᵥ (y.vec n - v.vec n) + L / 2 * sqDist (y.vec n) (v.vec n)) →
          (∀ j, initial * factor ^ j ≤ 1 / L →
            ModelAbove n v loss gradient (initial * factor ^ j) (point j) (value j)) ∧
          (initial * factor ^ 10000 ≤ 1 / L → (run p tag v loss gradient initial factor).events = []) ∧
          min initial (factor / L) ≤ found.scale := by
  obtain ⟨point, value, tries, cases⟩ := run_first size same values lands loss positive above tag
  refine ⟨point, value, tries, cases, ?_⟩
  have scale : ∀ j : Nat, 0 < initial * factor ^ j := fun j => mul_pos positive (pow_pos above j)
  -- However the search has ended, no trial before the last was good, and the last one is good unless there is
  -- a warning.
  obtain ⟨k, early, ended, quiet, warned⟩ : ∃ k,
      (∀ i < k, ¬ ModelAbove n v loss gradient (initial * factor ^ i) (point i) (value i)) ∧
      (run p tag v loss gradient initial factor).outcome = .ok ⟨point k, initial * factor ^ k⟩ ∧
      ((run p tag v loss gradient initial factor).events = [] →
        ModelAbove n v loss gradient (initial * factor ^ k) (point k) (value k)) ∧
      (ModelAbove n v loss gradient (initial * factor ^ maxShrinks) (point maxShrinks) (value maxShrinks) →
        (run p tag v loss gradient initial factor).events = []) := by
    rcases cases with ⟨j, least, ran⟩ | ⟨never, ran⟩
    · rw [ran]
      exact ⟨j, fun i before good => not_lt.mpr (least.2 ⟨before.le.trans least.1.1, good⟩) before, rfl,
        fun _ => least.1.2, fun _ => rfl⟩
    · rw [ran]
      exact ⟨maxShrinks, fun i before => never i before.le, rfl, nofun, fun good => absurd good (never _ le_rfl)⟩
  refine ⟨_, value k, ended, (tries k).value_eq, scale k, ?_, quiet, fun L large rise => ?_⟩
  · exact mul_le_of_le_one_right positive.le (pow_le_one₀ above.le shrinks.le)
  · have accepts : ∀ j : Nat, initial * factor ^ j ≤ 1 / L →
        ModelAbove n v loss gradient (initial * factor ^ j) (point j) (value j) := by
      intro j small
      refine (majorizes_iff (scale j)).mp (majorizes_of_rise ?_ (scale j) ((le_div_iff₀ large).mp small))
      linarith [rise (point j) (value j) (tries j).size (tries j).value_eq]
    exact ⟨accepts, fun small => warned (accepts maxShrinks small), scale_ge_of_first above accepts early⟩

/-- Down a parabola, with nothing but the gradient step, a search that starts with too large a scale ends
without a warning. -/
theorem takes_first_majorizing_parabola : ∃ loss gradient found,
    (Objective.halfSquare 1).value (.constant 1 1) = .ok loss ∧
      (Objective.halfSquare 1).gradient (.constant 1 1) = .ok gradient ∧
      run ⟨.halfSquare 1, fun u _ => .ok u⟩ "PGD" (.constant 1 1) loss gradient 4 (1 / 2) = ⟨[], .ok found⟩ ∧
      1 / 2 ≤ found.scale ∧ found.scale ≤ 4 := by
  have conforming := Objective.halfSquare_conforming 1
  have size : (Coords.constant 1 (1 : ℝ)).size = 1 := Coords.size_constant 1 1
  obtain ⟨loss, here⟩ := conforming.value _ size
  obtain ⟨gradient, slope, fits⟩ := conforming.gradient _ size
  obtain ⟨_, _, _, _, found, _, ended, _, _, above, _, smooth⟩ :=
    takes_first_majorizing ⟨.halfSquare 1, fun u _ => .ok u⟩ "PGD" (.constant 1 1) loss gradient 4 (1 / 2) size fits
      conforming.value (fun u _ uSize _ => ⟨u, rfl, uSize⟩) (by norm_num) (by norm_num) (by norm_num)
  obtain ⟨_, quiet, floor⟩ := smooth 1 one_pos fun y fy ySize there => by
    have rise := Objective.halfSquare_smooth 1 _ y loss fy gradient size ySize here there slope
    change fy ≤ loss + _ + 1 / 2 * ((y.vec 1 - _) ⬝ᵥ (y.vec 1 - _))
    linarith
  have small : (4 : ℝ) * (1 / 2) ^ 10000 ≤ 1 / 1 := by
    have tiny : (1 / 2 : ℝ) ^ 10000 ≤ (1 / 2) ^ 2 := pow_le_pow_of_le_one (by norm_num) (by norm_num) (by norm_num)
    exact (mul_le_mul_of_nonneg_left tiny zero_le_four).trans (by norm_num)
  refine ⟨loss, gradient, found, here, slope, ?_, ?_, above⟩
  · rw [← quiet small, ← ended]
  · norm_num at floor
    linarith

end Downhill.Majorant
