import Downhill.Proofs.ProximalMomentum.Step
import Downhill.Proofs.Run.Trajectory

namespace Downhill.ProximalMomentum

/-- The point ahead of the last one, by a multiple of the last displacement that grows with the
counter. -/
noncomputable def ahead (n : Nat) (s : State ℝ) : Fin n → ℝ :=
  s.previous.vec n + (0.5 * ((s.counter : ℝ) + 1)) • (s.point.vec n - s.previous.vec n)

/-- Seen from the last point and from a minimizer, in the right proportion, the way from the
extrapolated point to the new one is the way of the point ahead. -/
theorem sqDist_ahead {n : Nat} (x before q z : Fin n → ℝ) {c : ℝ} (nonneg : 0 ≤ c) :
    c * (c + 2) / 4 * (sqDist x (x + ((c - 1) / (c + 2)) • (x - before)) - sqDist x q) +
        (c + 2) / 2 * (sqDist z (x + ((c - 1) / (c + 2)) • (x - before)) - sqDist z q) =
      sqDist (before + (0.5 * (c + 1)) • (x - before)) z - sqDist (x + (0.5 * (c + 2)) • (q - x)) z := by
  have nonzero : c + 2 ≠ 0 := by linarith
  simp only [sqDist_eq_sum, Finset.mul_sum, ← Finset.sum_add_distrib, ← Finset.sum_sub_distrib]
  refine Finset.sum_congr rfl fun i _ => ?_
  simp only [Pi.add_apply, Pi.sub_apply, Pi.smul_apply, smul_eq_mul]
  field_simp
  ring

variable {n : Nat} {config : Config ℝ} {p : Composite ℝ} {h : ProximalTerm n} {x z : Coords ℝ}
  {s s' : State ℝ} {v gradient : Coords ℝ} {loss fq : ℝ} {found : ProximalStep ℝ}

/-- With the given weight, the objective above its minimum and the point ahead are together within
reach of the start. -/
def Bounded (p : Composite ℝ) (h : ProximalTerm n) (x z : Coords ℝ) (weight : ℝ) (s : State ℝ) : Prop :=
  ∀ fx fz, p.smooth.value s.point = .ok fx → p.smooth.value z = .ok fz →
    0.5 * s.scale * weight * (fx + h.value (s.point.vec n) - (fz + h.value (z.vec n))) +
      sqDist (ahead n s) (z.vec n) ≤ sqDist (x.vec n) (z.vec n)

/-- What every state carries on. At the start the weight is zero, since the start need not be in the
domain of the term. -/
structure Carries (config : Config ℝ) (p : Composite ℝ) (h : ProximalTerm n) (x z : Coords ℝ)
    (s : State ℝ) : Prop where
  sized : Sized n s
  inside : s.counter ≠ 0 → s.point.vec n ∈ h.domain
  bounded : Bounded p h x z (s.counter * (s.counter + 2)) s
  wide : ∀ L, 0 < L → p.smooth.Smooth L n → min 1 (config.beta / L) ≤ s.scale

theorem carries_start (config : Config ℝ) (p : Composite ℝ) (h : ProximalTerm n) (z : Coords ℝ)
    (size : x.size = n) : Carries config p h x z (.initial x) := by
  refine ⟨sized_start size, fun nonzero => absurd rfl nonzero, fun fx fz _ _ => ?_, fun L _ _ => min_le_left _ _⟩
  have still : ahead n (.initial x) = x.vec n := by
    simp [ahead, State.initial]
  rw [still]
  simp [State.initial]

theorem Bounded.mono {heavy light : ℝ} (bounded : Bounded p h x z heavy s) (lighter : light ≤ heavy)
    (least : h.Minimizer p.smooth z) (sized : Sized n s) (inside : s.point.vec n ∈ h.domain) :
    Bounded p h x z light s := by
  intro fx fz here there
  have above := sub_nonneg.mpr (least.least s.point fx fz sized.size inside here there)
  have less := mul_le_mul_of_nonneg_right (mul_le_mul_of_nonneg_left lighter sized.positive.le) above
  linarith [bounded fx fz here there]

theorem Moves.ahead_eq (moves : Moves config p s v loss gradient found s')
    (counter : s'.counter = s.counter + 1) (n : Nat) : ahead n s' = s.point.vec n +
      (0.5 * ((s.counter : ℝ) + 2)) • (found.point.vec n - s.point.vec n) := by
  rw [ahead, moves.previous_eq, moves.point_eq, counter]
  push_cast
  ring_nf

/-- Before the first step nothing needs to be known of the last point. -/
theorem weight_mul_le {c : Nat} {a b : ℝ} (later : c ≠ 0 → a ≤ b) :
    (c * (c + 2) : ℝ) * a ≤ c * (c + 2) * b := by
  rcases Nat.eq_zero_or_pos c with rfl | positive
  · simp
  · exact mul_le_mul_of_nonneg_left (later positive.ne') (by positivity)

section

variable (convex : p.smooth.Convex n) (convexTerm : h.Convex) (least : h.Minimizer p.smooth z)

include convex convexTerm least

/-- The potential does not grow in a step whose search was not exhausted. -/
theorem Moves.bounded (moves : Moves config p s v loss gradient found s')
    (carries : Carries config p h x z s) (starts : Majorant.At p h v loss gradient)
    (trial : Majorant.Trial p h v gradient found.scale found.point fq) (positive : 0 < found.scale)
    (shorter : found.scale ≤ s.scale)
    (above : Majorant.Majorizes n v loss gradient found.scale found.point fq)
    (counter : s'.counter = s.counter + 1) : Bounded p h x z ((s.counter + 2) ^ 2) s' := by
  intro fx' fz here there
  rw [moves.point_eq] at here
  obtain rfl : fq = fx' := Except.ok.inj (trial.value.symm.trans here)
  obtain ⟨fx, atPoint⟩ := starts.conforming.value s.point carries.sized.size
  have carried := carries.bounded fx fz atPoint there
  have fromMinimizer := mul_le_mul_of_nonneg_left
    (trial.beats starts convex convexTerm positive above least.size least.inside there)
    (by positivity : (0 : ℝ) ≤ (s.counter + 2) / 2)
  have fromLast := weight_mul_le fun nonzero =>
    trial.beats starts convex convexTerm positive above carries.sized.size (carries.inside nonzero) atPoint
  -- The scale only shrinks, and the last point is no better than the minimizer.
  have shrunk := weight_mul_le fun nonzero => mul_le_mul_of_nonneg_right shorter
    (sub_nonneg.mpr (least.least s.point fx fz carries.sized.size (carries.inside nonzero) atPoint there))
  have way := sqDist_ahead (s.point.vec n) (s.previous.vec n) (found.point.vec n) (z.vec n)
    (Nat.cast_nonneg s.counter)
  rw [← vec_start moves.extrapolate_eq, ← moves.ahead_eq counter] at way
  rw [ahead] at carried
  rw [moves.scale_eq, moves.point_eq]
  linarith

/-- A step whose search is not exhausted carries everything on, and the weight of its state is the
square of the counter after it. -/
theorem Carries.step (carries : Carries config p h x z s) (conforming : p.smooth.Conforming n)
    (expands : p.smooth.Expands n) (proximal : h.IsExact p.prox) (valid : schema.validate config = .ok ())
    (plain : config.restart = false) (ample : ¬ Majorant.Exhausted (step config p s)) :
    ∃ s', (step config p s).outcome = .ok s' ∧ s'.counter = s.counter + 1 ∧
      s'.point.vec n ∈ h.domain ∧ Carries config p h x z s' ∧ Bounded p h x z ((s'.counter + 1) ^ 2) s' := by
  obtain ⟨⟨shrinks, below⟩, _⟩ := validate_eq_ok.mp valid
  obtain ⟨s', made⟩ := step_ok conforming expands proximal valid carries.sized
  have sized := carries.sized.step conforming expands proximal valid made
  obtain ⟨v, loss, gradient, found, moves⟩ := step_cases made
  have starts := moves.at conforming expands proximal carries.sized
  obtain ⟨positive, shorter, fq, trial, above⟩ :=
    starts.run_cases carries.sized.positive shrinks below.le moves.search_eq
  have counter : s'.counter = s.counter + 1 := by
    rcases moves.counter_eq with next | ⟨restart, _⟩
    · exact next
    · cases plain.symm.trans restart
  have inside : s'.point.vec n ∈ h.domain := moves.point_eq ▸ trial.near.inside
  have bounded : Bounded p h x z ((s'.counter + 1) ^ 2) s' := by
    have next := moves.bounded convex convexTerm least carries starts trial positive shorter
      (above fun spent => ample (moves.exhausted_iff.mpr spent)) counter
    have weight : (s'.counter + 1 : ℝ) = s.counter + 2 := by
      rw [counter]
      push_cast
      ring
    rwa [weight]
  refine ⟨s', made, counter, inside, ⟨sized, fun _ => inside, ?_, fun L large smooth => ?_⟩, bounded⟩
  · exact bounded.mono (by linarith) least sized inside
  · rw [moves.scale_eq]
    refine le_trans (le_min (carries.wide L large smooth) (min_le_right _ _)) ?_
    exact starts.scale_ge carries.sized.positive shrinks smooth large moves.search_eq

theorem carries_after (conforming : p.smooth.Conforming n) (expands : p.smooth.Expands n)
    (proximal : h.IsExact p.prox) (valid : schema.validate config = .ok ()) (plain : config.restart = false)
    (size : x.size = n) {k : Nat} (ample : ∀ i < k, ∀ s, method.after config p x () i = .ok (s, ()) →
      ¬ Majorant.Exhausted (step config p s)) {i : Nat} (within : i ≤ k) :
    ∃ s, method.after config p x () i = .ok (s, ()) ∧ s.counter = i ∧ Carries config p h x z s := by
  induction i with
  | zero => exact ⟨.initial x, rfl, rfl, carries_start config p h z size⟩
  | succ i ih =>
    obtain ⟨s, reached, counter, carries⟩ := ih (Nat.le_of_succ_le within)
    obtain ⟨s', made, next, _, carries', _⟩ := carries.step convex convexTerm least conforming expands
      proximal valid plain (ample i within s reached)
    exact ⟨s', Method.after_succ_eq_ok.mpr ⟨s, (), reached, made, rfl⟩, by rw [next, counter], carries'⟩

end

theorem Bounded.gap_le {m : ℝ} (bounded : Bounded p h x z (m ^ 2) s) (above : 0 < m) (positive : 0 < s.scale)
    {fx fz : ℝ} (here : p.smooth.value s.point = .ok fx) (there : p.smooth.value z = .ok fz) :
    fx + h.value (s.point.vec n) - (fz + h.value (z.vec n)) ≤
      2 * sqDist (x.vec n) (z.vec n) / (m ^ 2 * s.scale) := by
  have potential := bounded fx fz here there
  have nonneg := sqDist_nonneg (ahead n s) (z.vec n)
  rw [le_div_iff₀ (by positivity)]
  linarith

/-- On a convex problem, without restarts and with no search exhausted, the objective after `k` steps is above
the minimum by at most twice the squared distance of the start from the minimizer, over the scale and the
square of `k + 1`; and on a smooth objective the scale stays above a constant. -/
theorem fast_rate (config : Config ℝ) (p : Composite ℝ) (x z : Coords ℝ) (h : ProximalTerm x.size) (k : Nat)
    (valid : schema.validate config = .ok ()) (plain : config.restart = false)
    (conforming : p.smooth.Conforming x.size) (expands : p.smooth.Expands x.size)
    (convex : p.smooth.Convex x.size) (convexTerm : h.Convex) (proximal : h.IsExact p.prox)
    (least : h.Minimizer p.smooth z) (later : 1 ≤ k)
    (ample : ∀ i < k, ∀ s, method.after config p x () i = .ok (s, ()) →
      ¬ Majorant.Exhausted (step config p s)) :
    ∃ (s : State ℝ) (fx fz : ℝ) (e : Coords ℝ), method.after config p x () k = .ok (s, ()) ∧
      p.smooth.value s.point = .ok fx ∧ p.smooth.value z = .ok fz ∧ x.sub z = .ok e ∧
      s.point.size = x.size ∧ s.point.vec x.size ∈ h.domain ∧ 0 < s.scale ∧
      fx + h.value (s.point.vec x.size) - (fz + h.value (z.vec x.size)) ≤
        2 * e.norm ^ 2 / ((k + 1) ^ 2 * s.scale) ∧
      ∀ L, 0 < L → p.smooth.Smooth L x.size → min 1 (config.beta / L) ≤ s.scale ∧
        fx + h.value (s.point.vec x.size) - (fz + h.value (z.vec x.size)) ≤
          2 * e.norm ^ 2 / ((k + 1) ^ 2 * min 1 (config.beta / L)) := by
  obtain ⟨⟨beta, _⟩, _⟩ := validate_eq_ok.mp valid
  obtain ⟨j, rfl⟩ : ∃ j, k = j + 1 := ⟨k - 1, by omega⟩
  obtain ⟨before, reached, counted, carries⟩ := carries_after convex convexTerm least conforming expands
    proximal valid plain rfl ample j.le_succ
  obtain ⟨s, made, counter, inside, carries', bounded⟩ := carries.step convex convexTerm least conforming
    expands proximal valid plain (ample j j.lt_succ_self before reached)
  obtain ⟨fx, here⟩ := conforming.value s.point carries'.sized.size
  obtain ⟨fz, there⟩ := conforming.value z least.size
  obtain ⟨e, apart, _⟩ := Coords.sub_ok rfl least.size
  have positive := carries'.sized.positive
  have gap := bounded.gap_le (by positivity) positive here there
  rw [counter, counted, ← Coords.sq_norm_of_sub rfl apart] at gap
  refine ⟨s, fx, fz, e, Method.after_succ_eq_ok.mpr ⟨before, (), reached, made, rfl⟩, here, there, apart,
    carries'.sized.size, inside, positive, gap, fun L large smooth => ?_⟩
  have wide := carries'.wide L large smooth
  have floor : 0 < min 1 (config.beta / L) := lt_min one_pos (div_pos beta large)
  refine ⟨wide, gap.trans ?_⟩
  gcongr

/-- Half the squared length where no coordinate is negative. -/
noncomputable def bowl (n : Nat) : Composite ℝ :=
  ⟨.halfSquare n, .nonnegative⟩

noncomputable def halving : Config ℝ :=
  ⟨false, 0.5, 0.1⟩

theorem minimizer_bowl (n : Nat) : (ProximalTerm.orthant n).Minimizer (bowl n).smooth (.zeros n) := by
  have origin : (Coords.zeros n : Coords ℝ).size = n := Coords.size_constant _ _
  refine ⟨origin, Coords.vec_zeros.ge, fun y fy fz size _ atY atZero => add_le_add_left ?_ _⟩
  have high := Table.height_identity (α := ℝ) n
  have wide := Table.width_identity (α := ℝ) n
  rw [Objective.quadratic_values high wide size atY, Objective.quadratic_values high wide origin atZero,
    Table.mat_identity, Matrix.one_mulVec, Matrix.one_mulVec, Coords.vec_zeros, sub_self, sub_zero]
  have nonneg : 0 ≤ y.vec n ⬝ᵥ y.vec n := Finset.sum_nonneg fun i _ => mul_self_nonneg _
  simpa using div_nonneg nonneg zero_le_two

/-- Two steps from one towards zero. -/
theorem fast_rate_bowl : ∃ (s : State ℝ) (fx fz : ℝ) (e : Coords ℝ),
    method.after halving (bowl 1) (.constant 1 1) () 2 = .ok (s, ()) ∧
      (bowl 1).smooth.value s.point = .ok fx ∧ (bowl 1).smooth.value (.zeros 1) = .ok fz ∧
      (Coords.constant 1 1).sub (.zeros 1) = .ok e ∧ 0.5 ≤ s.scale ∧
      fx - fz ≤ 2 * e.norm ^ 2 / ((2 + 1) ^ 2 * 0.5) := by
  have valid : schema.validate halving = .ok () := validate_eq_ok.mpr (by norm_num [halving])
  have smooth : (bowl 1).smooth.Smooth 1 1 := Objective.halfSquare_smooth 1
  have conforming := Objective.halfSquare_conforming 1
  have expands : (bowl 1).smooth.Expands 1 := Objective.quadratic_expands _ _ 1
  have proximal := ProximalTerm.nonnegative_isExact 1
  have small : halving.beta ^ Majorant.maxShrinks * 1 ≤ 1 := by
    rw [mul_one]
    exact pow_le_one₀ (by norm_num [halving]) (by norm_num [halving])
  obtain ⟨s, fx, fz, e, reached, here, there, apart, _, _, _, _, rate⟩ :=
    fast_rate halving (bowl 1) (.constant 1 1) (.zeros 1) (.orthant 1) 2 valid rfl conforming expands
      (Objective.halfSquare_convex 1) (ProximalTerm.orthant_convex 1) proximal (minimizer_bowl 1)
      one_le_two fun i _ s reached => never_exhausted conforming expands proximal valid smooth zero_le_one
        small (Coords.size_constant _ _) reached
  obtain ⟨wide, gap⟩ := rate 1 one_pos smooth
  have floor : min 1 (halving.beta / 1) = 0.5 := by norm_num [halving]
  rw [floor] at wide gap
  refine ⟨s, fx, fz, e, reached, here, there, apart, wide, ?_⟩
  simpa [ProximalTerm.orthant] using gap

end Downhill.ProximalMomentum
