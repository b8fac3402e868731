import Downhill.Proofs.Search.Shrinking
import Downhill.Proofs.Terms
import Downhill.Search.Majorant

namespace Downhill.Majorant

section

variable {α β γ : Type}

/-- A proximal search has run out of shrinks. -/
def Exhausted (w : Work α β) : Prop :=
  ∃ tag shrinks t, Event.proximalExhausted tag shrinks t ∈ w.events

theorem exhausted_bind {w : Work α β} {f : β → Work α γ} :
    Exhausted (w >>= f) ↔ Exhausted w ∨ ∃ b, w.outcome = .ok b ∧ Exhausted (f b) := by
  simp only [Exhausted, Work.mem_events_bind]
  grind

theorem not_exhausted_checked (x : Checked β) : ¬ Exhausted (liftM x : Work α β) := by
  simp [Exhausted]

end

section

variable {α : Type} [Scalar α] {p : Composite α} {tag : String} {v gradient : Coords α}
  {loss initial factor : α}

theorem run_eq_ok {found : ProximalStep α} :
    (run p tag v loss gradient initial factor).outcome = .ok found ↔
      ∃ last, Backtracking.run (attempt p v loss gradient) factor maxShrinks initial = .ok last ∧
        found = ⟨last.trial, last.step⟩ := by
  simp only [run, Work.outcome_bind_eq_ok, Work.outcome_checked_eq_ok]
  refine exists_congr fun last => and_congr_right fun _ => ?_
  cases last.accepted <;>
    exact ⟨fun ended => (Except.ok.inj ended).symm, fun same => congrArg Except.ok same.symm⟩

theorem candidate_of_attempt {q : Coords α} {t : α} {accepted : Bool}
    (made : attempt p v loss gradient t = .ok (q, accepted)) : candidate p.prox v gradient t = .ok q := by
  simp only [attempt, Outcome.bind_eq_ok, Outcome.pure_eq_ok, Prod.mk.injEq] at made
  obtain ⟨_, here, _, _, _, _, _, _, rfl, _⟩ := made
  exact here

/-- A trial is made wherever the proximal map and the objective have values of fitting sizes. -/
theorem attempt_of_candidate {n : Nat} {t fq : α} {u q : Coords α} (size : v.size = n) (same : gradient.size = n)
    (moved : v.advance (-t) gradient = .ok u) (found : p.prox u t = .ok q) (qSize : q.size = n)
    (atValue : p.smooth.value q = .ok fq) : ∃ accepted, attempt p v loss gradient t = .ok (q, accepted) := by
  obtain ⟨change, apart, changeSize⟩ := Coords.sub_ok qSize size
  have slope : gradient.dot change = .ok (gradient.pairing change) := if_pos (same.trans changeSize.symm)
  refine ⟨decide (t * fq ≤ t * loss + t * gradient.pairing change + 0.5 * change.pairing change), ?_⟩
  simp only [attempt, candidate, model, moved, found, apart, slope, Coords.dot_self, atValue, bind, Except.bind,
    pure, Except.pure]

theorem exhausted_run : Exhausted (run p tag v loss gradient initial factor) ↔
    ∃ last, Backtracking.run (attempt p v loss gradient) factor maxShrinks initial = .ok last ∧
      last.accepted = false := by
  simp only [run, exhausted_bind, not_exhausted_checked, Work.outcome_checked_eq_ok, false_or]
  refine exists_congr fun last => and_congr_right fun _ => ?_
  cases last.accepted <;> simp [Exhausted, Work.mem_events_bind]

theorem exhausted_run_iff {last : Backtracking α (Coords α)}
    (searched : Backtracking.run (attempt p v loss gradient) factor maxShrinks initial = .ok last) :
    Exhausted (run p tag v loss gradient initial factor) ↔ last.accepted = false := by
  rw [exhausted_run, searched]
  simp only [Except.ok.injEq, exists_eq_left']

end

variable {n : Nat} {p : Composite ℝ} {h : ProximalTerm n} {tag : String} {v gradient q : Coords ℝ}
  {loss t fq L initial factor : ℝ}

/-- The search is at a point, with the value and the gradient there. -/
structure At (p : Composite ℝ) (h : ProximalTerm n) (v : Coords ℝ) (loss : ℝ) (gradient : Coords ℝ) :
    Prop where
  conforming : p.smooth.Conforming n
  proximal : h.IsExact p.prox
  size : v.size = n
  value : p.smooth.value v = .ok loss
  slope : p.smooth.gradient v = .ok gradient

/-- The proximal point behind a gradient step, with the value there. -/
structure Trial (p : Composite ℝ) (h : ProximalTerm n) (v gradient : Coords ℝ) (t : ℝ) (q : Coords ℝ)
    (fq : ℝ) : Prop where
  size : q.size = n
  near : h.Nearest t (v.vec n + -t • gradient.vec n) (q.vec n)
  value : p.smooth.value q = .ok fq

/-- The model lies above the objective at `q`. -/
def Majorizes (n : Nat) (v : Coords ℝ) (loss : ℝ) (gradient : Coords ℝ) (t : ℝ) (q : Coords ℝ) (fq : ℝ) :
    Prop :=
  t * fq ≤ t * loss + t * (gradient.vec n ⬝ᵥ (q.vec n - v.vec n)) + 0.5 * sqDist (q.vec n) (v.vec n)

/-- Where value and gradient are computed at once, a search can start. -/
theorem expand_ok (conforming : p.smooth.Conforming n) (expands : p.smooth.Expands n)
    (proximal : h.IsExact p.prox) (size : v.size = n) :
    ∃ loss gradient, p.smooth.expand v = .ok (loss, gradient) ∧ At p h v loss gradient := by
  obtain ⟨loss, gradient, atValue, atSlope, _, expanded⟩ := conforming.expand_ok expands size
  exact ⟨loss, gradient, expanded, conforming, proximal, size, atValue, atSlope⟩

theorem at_of_expand (conforming : p.smooth.Conforming n) (expands : p.smooth.Expands n)
    (proximal : h.IsExact p.prox) (size : v.size = n) (expanded : p.smooth.expand v = .ok (loss, gradient)) :
    At p h v loss gradient := by
  obtain ⟨atValue, atSlope, _⟩ := conforming.of_expand expands size expanded
  exact ⟨conforming, proximal, size, atValue, atSlope⟩

/-- A trial that is made has a value, and is accepted where the model lies above it. -/
theorem attempt_cases {accepted : Bool} (size : v.size = n)
    (made : attempt p v loss gradient t = .ok (q, accepted)) :
    q.size = n ∧ ∃ fq, p.smooth.value q = .ok fq ∧
      (accepted = true ↔ Majorizes n v loss gradient t q fq) := by
  simp only [attempt, model, Outcome.bind_eq_ok, Outcome.pure_eq_ok, Prod.mk.injEq] at made
  obtain ⟨point, _, change, apart, bound, ⟨along, atSlope, square, atSquare, rfl⟩, fq, atValue, rfl, rfl⟩ := made
  obtain ⟨same, changeSize⟩ := Coords.size_combine apart
  have qSize : point.size = n := same.trans size
  have within : change.size ≤ n := (changeSize.trans qSize).le
  have fits := (Coords.dot_eq le_rfl atSlope).1
  obtain ⟨_, rfl⟩ := Coords.dot_eq (fits.trans_le within) atSlope
  obtain ⟨_, rfl⟩ := Coords.dot_eq within atSquare
  refine ⟨qSize, fq, atValue, ?_⟩
  rw [decide_eq_true_eq, Coords.vec_sub apart]
  rfl

theorem accepted_iff {accepted : Bool} (size : v.size = n) (atValue : p.smooth.value q = .ok fq)
    (made : attempt p v loss gradient t = .ok (q, accepted)) :
    accepted = true ↔ Majorizes n v loss gradient t q fq := by
  obtain ⟨_, other, found, above⟩ := attempt_cases size made
  obtain rfl := Except.ok.inj (found.symm.trans atValue)
  exact above

theorem At.attempt_ok (starts : At p h v loss gradient) (positive : 0 < t) :
    ∃ q fq accepted, attempt p v loss gradient t = .ok (q, accepted) ∧ Trial p h v gradient t q fq ∧
      (accepted = true ↔ Majorizes n v loss gradient t q fq) := by
  have gradientSize := starts.conforming.size_gradient starts.size starts.slope
  obtain ⟨u, moved, uSize⟩ := Coords.advance_ok starts.size gradientSize (-t)
  obtain ⟨q, found, qSize, near⟩ := starts.proximal u t uSize positive
  rw [Coords.vec_advance moved] at near
  obtain ⟨fq, atValue⟩ := starts.conforming.value q qSize
  obtain ⟨accepted, made⟩ := attempt_of_candidate starts.size gradientSize moved found qSize atValue
  exact ⟨q, fq, accepted, made, ⟨qSize, near, atValue⟩, accepted_iff starts.size atValue made⟩

/-- An objective that rises above its tangent by no more than a constant allows is below the models of small
scale. -/
theorem majorizes_of_rise
    (rise : fq ≤ loss + gradient.vec n ⬝ᵥ (q.vec n - v.vec n) + 0.5 * L * sqDist (q.vec n) (v.vec n))
    (positive : 0 < t) (small : t * L ≤ 1) : Majorizes n v loss gradient t q fq := by
  have scaled := mul_le_mul_of_nonneg_left rise positive.le
  have shorter := mul_le_mul_of_nonneg_right small (sqDist_nonneg (q.vec n) (v.vec n))
  unfold Majorizes
  linarith

theorem majorizes_of_smooth {fv : ℝ} (smooth : p.smooth.Smooth L n) (size : v.size = n) (qSize : q.size = n)
    (here : p.smooth.value v = .ok fv) (there : p.smooth.value q = .ok fq)
    (slope : p.smooth.gradient v = .ok gradient) (positive : 0 < t) (small : t * L ≤ 1) :
    Majorizes n v fv gradient t q fq :=
  majorizes_of_rise (smooth v q fv fq gradient size qSize here there slope) positive small

/-- On a smooth objective only large scales are refused, whatever the proximal map. -/
theorem large_of_refused (smooth : p.smooth.Smooth L n) (size : v.size = n) (here : p.smooth.value v = .ok loss)
    (slope : p.smooth.gradient v = .ok gradient) (positive : 0 < t)
    (made : attempt p v loss gradient t = .ok (q, false)) : 1 < t * L := by
  obtain ⟨qSize, fq, there, above⟩ := attempt_cases size made
  by_contra small
  exact Bool.false_ne_true
    (above.mpr (majorizes_of_smooth smooth size qSize here there slope positive (not_lt.mp small)))

theorem At.refused (starts : At p h v loss gradient) (smooth : p.smooth.Smooth L n) (positive : 0 < t)
    (made : attempt p v loss gradient t = .ok (q, false)) : 1 < t * L :=
  large_of_refused smooth starts.size starts.value starts.slope positive made

/-- Where the model lies above the objective the proximal point beats every other point at which the
objective is not below its tangent, but for how much nearer the search started to that than it has come. -/
theorem Trial.beats_above (trial : Trial p h v gradient t q fq) (convexTerm : h.Convex) (positive : 0 < t)
    (above : Majorizes n v loss gradient t q fq) {y : Fin n → ℝ} {fy : ℝ} (inside : y ∈ h.domain)
    (tangent : loss + gradient.vec n ⬝ᵥ (y - v.vec n) ≤ fy) :
    2 * t * (fq + h.value (q.vec n) - (fy + h.value y)) ≤ sqDist y (v.vec n) - sqDist y (q.vec n) := by
  have scaled := mul_le_mul_of_nonneg_left tangent positive.le
  have nearer := trial.near.beats convexTerm positive inside
  rw [sqDist_moved, sqDist_moved] at nearer
  unfold Majorizes at above
  linarith

/-- On a convex objective that is every other point. -/
theorem Trial.beats (trial : Trial p h v gradient t q fq) (starts : At p h v loss gradient)
    (convex : p.smooth.Convex n) (convexTerm : h.Convex) (positive : 0 < t)
    (above : Majorizes n v loss gradient t q fq) {y : Coords ℝ} {fy : ℝ} (size : y.size = n)
    (inside : y.vec n ∈ h.domain) (there : p.smooth.value y = .ok fy) :
    2 * t * (fq + h.value (q.vec n) - (fy + h.value (y.vec n))) ≤
      sqDist (y.vec n) (v.vec n) - sqDist (y.vec n) (q.vec n) :=
  trial.beats_above convexTerm positive above inside
    (convex v y loss fy gradient starts.size size starts.value there starts.slope)

/-- The objective falls on the way from where the search started, whether or not it is convex. -/
theorem Trial.descends (trial : Trial p h v gradient t q fq) (convexTerm : h.Convex) (positive : 0 < t)
    (above : Majorizes n v loss gradient t q fq) (inside : v.vec n ∈ h.domain) :
    fq + h.value (q.vec n) ≤ loss + h.value (v.vec n) - sqDist (q.vec n) (v.vec n) / (2 * t) := by
  have fallen : 2 * t * (fq + h.value (q.vec n) - (loss + h.value (v.vec n))) ≤
      sqDist (v.vec n) (v.vec n) - sqDist (v.vec n) (q.vec n) :=
    trial.beats_above convexTerm positive above inside (by simp)
  have still : sqDist (v.vec n) (v.vec n) = 0 := by simp [sqDist]
  rw [still, zero_sub, sqDist_comm] at fallen
  have twice : 0 < 2 * t := by linarith
  rw [le_sub_iff_add_le, ← le_sub_iff_add_le', div_le_iff₀ twice]
  linarith

/-- A proximal point that is close to where the search started, compared with its scale, is not far above any
other point. -/
theorem Trial.nearly_least (trial : Trial p h v gradient t q fq) (convexTerm : h.Convex) (positive : 0 < t)
    (above : Majorizes n v loss gradient t q fq) {eps : ℝ} (close : √(sqDist (q.vec n) (v.vec n)) ≤ t * eps)
    {y : Fin n → ℝ} {fy : ℝ} (inside : y ∈ h.domain) (tangent : loss + gradient.vec n ⬝ᵥ (y - v.vec n) ≤ fy) :
    fq + h.value (q.vec n) ≤ fy + h.value y + eps * √(sqDist (v.vec n) y) := by
  have beaten := trial.beats_above convexTerm positive above inside tangent
  have split := sqDist_through y (v.vec n) (q.vec n)
  have apart := sqDist_nonneg (v.vec n) (q.vec n)
  -- What the start is nearer than the point is the product of the two displacements.
  have product : (v.vec n - y) ⬝ᵥ (v.vec n - q.vec n) ≤ √(sqDist (v.vec n) y) * (t * eps) := by
    refine (Coords.dotProduct_le_sqrt _ _).trans (mul_le_mul_of_nonneg_left ?_ (Real.sqrt_nonneg _))
    rwa [← sqDist, sqDist_comm]
  have turned : (y - v.vec n) ⬝ᵥ (v.vec n - q.vec n) = -((v.vec n - y) ⬝ᵥ (v.vec n - q.vec n)) := by
    rw [← neg_dotProduct, neg_sub]
  have scaled : t * (fq + h.value (q.vec n) - (fy + h.value y)) ≤ t * (eps * √(sqDist (v.vec n) y)) := by
    linarith
  linarith [le_of_mul_le_mul_left scaled positive]

/-- Over the points without negative coordinate a short gradient leads to a point that is as close. -/
theorem Trial.close_of_small (trial : Trial p (.orthant n) v gradient t q fq) (positive : 0 < t)
    (inside : 0 ≤ v.vec n) {eps : ℝ} (small : √(gradient.vec n ⬝ᵥ gradient.vec n) ≤ eps) :
    √(sqDist (q.vec n) (v.vec n)) ≤ t * eps := by
  obtain ⟨nonneg, bound⟩ := Real.sqrt_le_iff.mp small
  refine Real.sqrt_le_iff.mpr ⟨mul_nonneg positive.le nonneg, ?_⟩
  rw [mul_pow]
  exact (trial.near.orthant_close positive inside).trans (mul_le_mul_of_nonneg_left bound (sq_nonneg t))

section

variable (starts : At p h v loss gradient) (positive : 0 < initial) (shrinking : 0 < factor)

include starts positive shrinking

theorem At.run_ok (tag : String) :
    ∃ found, (run p tag v loss gradient initial factor).outcome = .ok found := by
  have total : ∀ t, 0 < t → ∃ trial, attempt p v loss gradient t = .ok trial := by
    intro t positive
    obtain ⟨q, fq, accepted, made, _⟩ := starts.attempt_ok positive
    exact ⟨_, made⟩
  obtain ⟨last, searched⟩ := Backtracking.resume_ok_of_keeps total
    (fun t positive => mul_pos positive shrinking) maxShrinks positive 0
  exact ⟨_, run_eq_ok.mpr ⟨last, searched, rfl⟩⟩

/-- The search ends with a trial whose model lies above the objective, unless it was exhausted. -/
theorem At.run_cases (shrinks : factor ≤ 1) {found : ProximalStep ℝ}
    (made : (run p tag v loss gradient initial factor).outcome = .ok found) :
    0 < found.scale ∧ found.scale ≤ initial ∧ ∃ fq, Trial p h v gradient found.scale found.point fq ∧
      (¬ Exhausted (run p tag v loss gradient initial factor) →
        Majorizes n v loss gradient found.scale found.point fq) := by
  obtain ⟨last, searched, rfl⟩ := run_eq_ok.mp made
  have ends := Backtracking.run_endsAt searched
  have last_pos : 0 < last.step := ends.step ▸ Backtracking.trialStep_pos positive shrinking _
  obtain ⟨q, fq, accepted, tried, trial, above⟩ := starts.attempt_ok last_pos
  obtain ⟨rfl, rfl⟩ := Prod.mk.inj (Except.ok.inj (tried.symm.trans ends.trial))
  refine ⟨last_pos, ?_, fq, trial, fun ample => above.mp ?_⟩
  · exact ends.step.trans_le (Backtracking.trialStep_bounds positive.le shrinking.le shrinks _).2
  · rw [exhausted_run_iff searched] at ample
    exact Bool.eq_true_of_not_eq_false ample

theorem At.scale_ge (smooth : p.smooth.Smooth L n) (bounded : 0 < L) {found : ProximalStep ℝ}
    (made : (run p tag v loss gradient initial factor).outcome = .ok found) :
    min initial (factor / L) ≤ found.scale := by
  obtain ⟨last, searched, rfl⟩ := run_eq_ok.mp made
  have ends := Backtracking.run_endsAt searched
  change _ ≤ last.step
  rw [ends.step, div_eq_mul_one_div]
  refine Backtracking.trialStep_ge shrinking.le fun j before => ?_
  obtain ⟨q, refused⟩ := ends.refused j (Nat.zero_le j) before
  have large := starts.refused smooth (Backtracking.trialStep_pos positive shrinking j) refused
  exact ((div_lt_iff₀ bounded).mpr large).le

theorem At.not_exhausted (smooth : p.smooth.Smooth L n) (small : initial * factor ^ maxShrinks * L ≤ 1) :
    ¬ Exhausted (run p tag v loss gradient initial factor) := by
  obtain ⟨found, made⟩ := starts.run_ok positive shrinking tag
  obtain ⟨last, searched, rfl⟩ := run_eq_ok.mp made
  have ends := Backtracking.run_endsAt searched
  rw [exhausted_run_iff searched]
  intro refused
  have final := ends.trial
  rw [refused, ends.step, ends.used refused] at final
  have large := starts.refused smooth (Backtracking.trialStep_pos positive shrinking maxShrinks) final
  rw [Backtracking.trialStep_eq] at large
  exact absurd small (not_le.mpr large)

end

end Downhill.Majorant
