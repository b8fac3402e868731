import Mathlib
import Downhill.Method.ProximalGradient
import Downhill.Proofs.ProximalMomentum.Rate

namespace Downhill.ProximalGradient

theorem validate_eq_ok {config : Config ℝ} :
    schema.validate config = .ok () ↔ 0 < config.eps ∧ 0 < config.beta ∧ config.beta < 1 := by
  simp [schema]

section

variable {α : Type} [Scalar α] {config : Config α} {p : Composite α} {s s' : PointState α}

/-- What a step has computed on its way to the state it leads to. -/
structure Moves (config : Config α) (p : Composite α) (s : PointState α) (loss : α) (gradient : Coords α)
    (found : ProximalStep α) (s' : PointState α) : Prop where
  expand_eq : p.smooth.expand s.point = .ok (loss, gradient)
  search_eq : (search config p s.point loss gradient).outcome = .ok found
  point_eq : s'.point = found.point
  finished_eq : ∃ change, s.point.sub found.point = .ok change ∧
    s'.finished = decide (change.norm ≤ found.scale * config.eps)

theorem step_eq_ok : (step config p s).outcome = .ok s' ↔
    ∃ loss gradient found, Moves config p s loss gradient found s' := by
  simp only [step, Work.outcome_bind_eq_ok, Work.outcome_checked_eq_ok, Prod.exists]
  constructor
  · rintro ⟨loss, gradient, expanded, found, searched, change, apart, done⟩
    cases done
    exact ⟨loss, gradient, found, expanded, searched, rfl, change, apart, rfl⟩
  · rintro ⟨loss, gradient, found, expanded, searched, point, change, apart, mark⟩
    refine ⟨loss, gradient, expanded, found, searched, change, apart, ?_⟩
    rw [← point, ← mark]
    rfl

theorem Moves.exhausted_iff {loss : α} {gradient : Coords α} {found : ProximalStep α}
    (moves : Moves config p s loss gradient found s') :
    Majorant.Exhausted (step config p s) ↔ Majorant.Exhausted (search config p s.point loss gradient) := by
  simp only [step, Majorant.exhausted_bind, Majorant.not_exhausted_checked, Work.outcome_checked_eq_ok,
    moves.expand_eq, moves.search_eq, Except.ok.injEq, exists_eq_left', false_or]
  refine or_iff_left ?_
  rintro ⟨change, _, spent⟩
  simp [Majorant.Exhausted] at spent

end

variable {n : Nat} {config : Config ℝ} {p : Composite ℝ} {h : ProximalTerm n} {x z : Coords ℝ}
  {s s' : PointState ℝ} {L : ℝ}

section

variable (conforming : p.smooth.Conforming n) (expands : p.smooth.Expands n) (proximal : h.IsExact p.prox)
  (valid : schema.validate config = .ok ())

include conforming expands proximal valid

/-- From a point of its dimension a step leads to another one. -/
theorem step_ok (size : s.point.size = n) : ∃ loss gradient found s',
    Moves config p s loss gradient found s' ∧ Majorant.At p h s.point loss gradient ∧
      s'.point.size = n := by
  obtain ⟨_, above, below⟩ := validate_eq_ok.mp valid
  obtain ⟨loss, gradient, expanded, starts⟩ := Majorant.expand_ok conforming expands proximal size
  obtain ⟨found, searched⟩ := starts.run_ok one_pos above tag
  obtain ⟨_, _, _, trial, _⟩ := starts.run_cases one_pos above below.le searched
  obtain ⟨change, apart, _⟩ := Coords.sub_ok size trial.size
  exact ⟨loss, gradient, found, ⟨found.point, decide (change.norm ≤ found.scale * config.eps)⟩,
    ⟨expanded, searched, rfl, change, apart, rfl⟩, starts, trial.size⟩

/-- Every state has the dimension of the start. -/
theorem size_of_after (size : x.size = n) {i : Nat} (reached : method.after config p x () i = .ok (s, ())) :
    s.point.size = n := by
  have keeps : ∀ (_ : Unit) (s s' : PointState ℝ), s.point.size = n →
      (method.step config p () s).outcome = .ok s' → s'.point.size = n := by
    intro _ s s' fits made
    obtain ⟨_, _, _, next, moves, _, fits'⟩ := step_ok conforming expands proximal valid fits
    cases (step_eq_ok.mpr ⟨_, _, _, moves⟩).symm.trans made
    exact fits'
  exact Method.after_invariant (m := method)
    (fun s started => by
      cases started
      exact size) keeps reached

/-- No search is exhausted on a smooth objective, if all shrinks together lead from one to a scale that
is small enough. -/
theorem never_exhausted (smooth : p.smooth.Smooth L n) (small : config.beta ^ Majorant.maxShrinks * L ≤ 1)
    (size : x.size = n) {i : Nat} (reached : method.after config p x () i = .ok (s, ())) :
    ¬ Majorant.Exhausted (step config p s) := by
  obtain ⟨_, above, _⟩ := validate_eq_ok.mp valid
  have fits := size_of_after conforming expands proximal valid size reached
  obtain ⟨loss, gradient, found, s', moves, starts, _⟩ := step_ok conforming expands proximal valid fits
  intro spent
  refine starts.not_exhausted one_pos above smooth ?_ (moves.exhausted_iff.mp spent)
  rwa [one_mul]

end

/-- What every state carries on after `k` steps: with the weight of all of them, the objective above its
minimum and the squared distance from the minimizer are together within reach of the start. Nothing is
known of the start itself, which need not be in the domain of the term. -/
structure Carries (p : Composite ℝ) (h : ProximalTerm n) (scale : ℝ) (x z : Coords ℝ) (k : Nat)
    (s : PointState ℝ) : Prop where
  size : s.point.size = n
  inside : k ≠ 0 → s.point.vec n ∈ h.domain
  bounded : ∀ fx fz, p.smooth.value s.point = .ok fx → p.smooth.value z = .ok fz →
    k * (2.0 * scale * (fx + h.value (s.point.vec n) - (fz + h.value (z.vec n)))) +
      sqDist (z.vec n) (s.point.vec n) ≤ sqDist (z.vec n) (x.vec n)

theorem carries_start (p : Composite ℝ) (h : ProximalTerm n) (scale : ℝ) (z : Coords ℝ) (size : x.size = n) :
    Carries p h scale x z 0 (.initial x) := by
  refine ⟨size, fun nonzero => absurd rfl nonzero, fun fx fz _ _ => ?_⟩
  rw [Nat.cast_zero, zero_mul, zero_add]
  rfl

section

variable (conforming : p.smooth.Conforming n) (expands : p.smooth.Expands n) (convex : p.smooth.Convex n)
  (smooth : p.smooth.Smooth L n) (bounded : 0 < L) (convexTerm : h.Convex) (proximal : h.IsExact p.prox)
  (least : h.Minimizer p.smooth z) (valid : schema.validate config = .ok ())

include conforming expands convex smooth bounded convexTerm proximal least valid

/-- A step whose search is not exhausted comes nearer to the minimizer and adds its share to the weight. -/
theorem Carries.step {k : Nat} (carries : Carries p h (min 1 (config.beta / L)) x z k s)
    (ample : ¬ Majorant.Exhausted (step config p s)) :
    ∃ s', (step config p s).outcome = .ok s' ∧ s'.point.vec n ∈ h.domain ∧
      Carries p h (min 1 (config.beta / L)) x z (k + 1) s' ∧
      sqDist (z.vec n) (s'.point.vec n) ≤ sqDist (z.vec n) (s.point.vec n) := by
  obtain ⟨_, shrinks, below⟩ := validate_eq_ok.mp valid
  obtain ⟨loss, gradient, found, s', moves, starts, size⟩ :=
    step_ok conforming expands proximal valid carries.size
  obtain ⟨positive, _, fq, trial, accepted⟩ := starts.run_cases one_pos shrinks below.le moves.search_eq
  have above := accepted fun spent => ample (moves.exhausted_iff.mpr spent)
  have wide := starts.scale_ge one_pos shrinks smooth bounded moves.search_eq
  obtain ⟨fx, here⟩ := conforming.value s.point carries.size
  obtain ⟨fz, there⟩ := conforming.value z least.size
  have fromMinimizer :=
    trial.beats starts convex convexTerm positive above least.size least.inside there
  have gap := sub_nonneg.mpr (least.least found.point fq fz trial.size trial.near.inside trial.value there)
  rw [← moves.point_eq] at fromMinimizer gap
  have inside : s'.point.vec n ∈ h.domain := moves.point_eq ▸ trial.near.inside
  have shorter := mul_le_mul_of_nonneg_right wide gap
  have floor : 0 < min 1 (config.beta / L) := lt_min one_pos (div_pos shrinks bounded)
  refine ⟨s', step_eq_ok.mpr ⟨loss, gradient, found, moves⟩, inside, ⟨size, fun _ => inside, ?_⟩, ?_⟩
  · intro fx' fz' here' there'
    obtain rfl : fz = fz' := Except.ok.inj (there.symm.trans there')
    rw [moves.point_eq] at here'
    obtain rfl : fq = fx' := Except.ok.inj (trial.value.symm.trans here')
    have carried := carries.bounded fx fz here there
    -- From the second step on the last point is in the domain, and the objective has not risen since.
    have fallen : k * (2.0 * min 1 (config.beta / L) *
        (fq + h.value (s'.point.vec n) - (fz + h.value (z.vec n)))) ≤
        k * (2.0 * min 1 (config.beta / L) *
          (fx + h.value (s.point.vec n) - (fz + h.value (z.vec n)))) := by
      rcases Nat.eq_zero_or_pos k with rfl | later
      · simp
      · have fromLast := trial.beats starts convex convexTerm positive above carries.size
          (carries.inside later.ne') here
        have same : sqDist (s.point.vec n) (s.point.vec n) = 0 := by simp [sqDist]
        have apart := sqDist_nonneg (s.point.vec n) (found.point.vec n)
        have drop : fq + h.value (s'.point.vec n) ≤ fx + h.value (s.point.vec n) := by
          rw [moves.point_eq]
          nlinarith
        gcongr
    push_cast
    linarith
  · have nonneg := mul_nonneg (mul_nonneg zero_le_two positive.le) gap
    linarith

theorem carries_after (size : x.size = n) {k : Nat}
    (ample : ∀ i < k, ∀ s, method.after config p x () i = .ok (s, ()) →
      ¬ Majorant.Exhausted (ProximalGradient.step config p s)) {i : Nat} (within : i ≤ k) :
    ∃ s, method.after config p x () i = .ok (s, ()) ∧ Carries p h (min 1 (config.beta / L)) x z i s := by
  induction i with
  | zero => exact ⟨.initial x, rfl, carries_start p h _ z size⟩
  | succ i ih =>
    obtain ⟨s, reached, carries⟩ := ih (Nat.le_of_succ_le within)
    obtain ⟨s', made, _, carries', _⟩ := carries.step conforming expands convex smooth bounded convexTerm
      proximal least valid (ample i within s reached)
    exact ⟨s', Method.after_succ_eq_ok.mpr ⟨s, (), reached, made, rfl⟩, carries'⟩

end

/-- On a convex and smooth objective with a convex term no search is exhausted if all shrinks together reach
the inverse of the constant; and after `k` steps the objective is above the minimum by at most the squared
distance of the start from the minimizer, over twice `k` times the least scale of a search. -/
theorem harmonic_rate (config : Config ℝ) (p : Composite ℝ) (x z : Coords ℝ) (h : ProximalTerm x.size) (L : ℝ)
    (valid : schema.validate config = .ok ()) (conforming : p.smooth.Conforming x.size)
    (expands : p.smooth.Expands x.size) (convex : p.smooth.Convex x.size)
    (smooth : p.smooth.Smooth L x.size) (bounded : 0 < L) (convexTerm : h.Convex)
    (proximal : h.IsExact p.prox) (least : h.Minimizer p.smooth z) :
    (config.beta ^ 10000 ≤ 1 / L → ∀ i s, method.after config p x () i = .ok (s, ()) →
      ¬ Majorant.Exhausted (step config p s)) ∧
    ∀ k, 1 ≤ k → (∀ i < k, ∀ s, method.after config p x () i = .ok (s, ()) →
        ¬ Majorant.Exhausted (step config p s)) →
      ∃ (before s : PointState ℝ) (d e o : Coords ℝ) (fx fz : ℝ),
        method.after config p x () (k - 1) = .ok (before, ()) ∧
        method.after config p x () k = .ok (s, ()) ∧
        s.point.sub z = .ok d ∧ before.point.sub z = .ok e ∧ d.norm ≤ e.norm ∧
        x.sub z = .ok o ∧ p.smooth.value s.point = .ok fx ∧ p.smooth.value z = .ok fz ∧
        s.point.size = x.size ∧ s.point.vec x.size ∈ h.domain ∧
        fx + h.value (s.point.vec x.size) - (fz + h.value (z.vec x.size)) ≤
          o.norm ^ 2 / (2 * k * min 1 (config.beta / L)) := by
  obtain ⟨_, above, _⟩ := validate_eq_ok.mp valid
  refine ⟨fun small i s reached => ?_, fun k later ample => ?_⟩
  · have product : config.beta ^ 10000 * L ≤ 1 := (le_div_iff₀ bounded).mp small
    exact never_exhausted conforming expands proximal valid smooth product rfl reached
  obtain ⟨j, rfl⟩ : ∃ j, k = j + 1 := ⟨k - 1, by omega⟩
  obtain ⟨before, reached, carries⟩ := carries_after conforming expands convex smooth bounded convexTerm
    proximal least valid rfl ample j.le_succ
  obtain ⟨s, made, inside, carries', nearer⟩ := carries.step conforming expands convex smooth bounded
    convexTerm proximal least valid (ample j j.lt_succ_self before reached)
  obtain ⟨fx, here⟩ := conforming.value s.point carries'.size
  obtain ⟨fz, there⟩ := conforming.value z least.size
  obtain ⟨d, apart, _⟩ := Coords.sub_ok carries'.size least.size
  obtain ⟨e, apartBefore, _⟩ := Coords.sub_ok carries.size least.size
  obtain ⟨o, apartStart, _⟩ := Coords.sub_ok rfl least.size
  refine ⟨before, s, d, e, o, fx, fz, reached,
    Method.after_succ_eq_ok.mpr ⟨before, (), reached, made, rfl⟩, apart, apartBefore, ?_, apartStart, here,
    there, carries'.size, inside, ?_⟩
  · refine (sq_le_sq₀ d.norm_nonneg e.norm_nonneg).mp ?_
    rw [Coords.sq_norm_of_sub carries'.size apart, Coords.sq_norm_of_sub carries.size apartBefore]
    rwa [sqDist_comm, sqDist_comm (before.point.vec _)]
  · have floor : 0 < min 1 (config.beta / L) := lt_min one_pos (div_pos above bounded)
    have count : (0 : ℝ) < (j + 1 : ℕ) := Nat.cast_pos.mpr j.succ_pos
    have potential := carries'.bounded fx fz here there
    have nonneg := sqDist_nonneg (z.vec x.size) (s.point.vec x.size)
    rw [le_div_iff₀ (by positivity), Coords.sq_norm_of_sub rfl apartStart, sqDist_comm]
    linarith

open ProximalMomentum in
/-- Three steps from one towards zero, whose searches are not exhausted. -/
theorem harmonic_rate_bowl : ∃ (s : PointState ℝ) (o : Coords ℝ) (fx fz : ℝ),
    method.after ⟨0.1, 0.5⟩ (bowl 1) (.constant 1 1) () 3 = .ok (s, ()) ∧
      ¬ Majorant.Exhausted (step ⟨0.1, 0.5⟩ (bowl 1) s) ∧
      (Coords.constant 1 1).sub (.zeros 1) = .ok o ∧ (bowl 1).smooth.value s.point = .ok fx ∧
      (bowl 1).smooth.value (.zeros 1) = .ok fz ∧ fx - fz ≤ o.norm ^ 2 / 3 := by
  have valid : schema.validate (⟨0.1, 0.5⟩ : Config ℝ) = .ok () := validate_eq_ok.mpr (by norm_num)
  obtain ⟨ample, rate⟩ := harmonic_rate ⟨0.1, 0.5⟩ (bowl 1) (.constant 1 1) (.zeros 1) (.orthant 1) 1 valid
    (Objective.halfSquare_conforming 1) (Objective.quadratic_expands _ _ 1) (Objective.halfSquare_convex 1)
    (Objective.halfSquare_smooth 1) one_pos (ProximalTerm.orthant_convex 1)
    (ProximalTerm.nonnegative_isExact 1) (minimizer_bowl 1)
  have calm := ample (by
    rw [one_div, inv_one]
    exact pow_le_one₀ (by norm_num) (by norm_num))
  obtain ⟨_, s, _, _, o, fx, fz, _, reached, _, _, _, apart, here, there, _, _, near⟩ :=
    rate 3 (by norm_num) fun i _ => calm i
  refine ⟨s, o, fx, fz, reached, calm 3 s reached, apart, here, there, ?_⟩
  norm_num [ProximalTerm.orthant] at near
  linarith

end Downhill.ProximalGradient
