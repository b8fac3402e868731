import Mathlib
import Downhill.Method.Acceleration
import Downhill.Proofs.Run.Trajectory
import Downhill.Proofs.Terms

namespace Downhill.Acceleration

theorem nextWeight_eq (w : ℝ) : nextWeight w = (1 + √(1 + 4 * w * w)) / 2 := by
  norm_num [nextWeight]

/-- The weights are chosen so that the square of one is the product of the next with what it exceeds one
by. -/
theorem nextWeight_mul_sub_one (w : ℝ) : nextWeight w * (nextWeight w - 1) = w ^ 2 := by
  have root : √(1 + 4 * w * w) ^ 2 = 1 + 4 * w * w := Real.sq_sqrt (by nlinarith [sq_nonneg w])
  rw [nextWeight_eq]
  linarith

theorem add_half_le_nextWeight (w : ℝ) : w + 1 / 2 ≤ nextWeight w := by
  have root : 2 * w ≤ √(1 + 4 * w * w) := Real.le_sqrt_of_sq_le (by linarith)
  rw [nextWeight_eq]
  linarith

theorem one_le_nextWeight (w : ℝ) : 1 ≤ nextWeight w := by
  have root : 1 ≤ √(1 + 4 * w * w) := Real.one_le_sqrt.mpr (by nlinarith [sq_nonneg w])
  rw [nextWeight_eq]
  linarith

section

variable {α : Type} [Scalar α] {config : Config α} {f : Objective α} {s s' : State α}

/-- Where an update leads that is given the gradient. -/
structure Moves (config : Config α) (s : State α) (gradient : Coords α) (s' : State α) : Prop where
  leading_eq : s.point.advance (-config.rate) gradient = .ok s'.leading
  point_eq : (s'.leading.scale (1 - mix s.weight)).add (s.leading.scale (mix s.weight)) = .ok s'.point
  weight_eq : s'.weight = nextWeight s.weight
  finished_eq : s'.finished = s.finished

theorem update_eq_ok {gradient : Coords α} :
    update config s gradient = .ok s' ↔ Moves config s gradient s' := by
  simp only [update, Outcome.bind_eq_ok, Outcome.pure_eq_ok]
  constructor
  · rintro ⟨leading, atLeading, point, atPoint, rfl⟩
    exact ⟨atLeading, atPoint, rfl, rfl⟩
  · rintro ⟨atLeading, atPoint, weight, mark⟩
    refine ⟨s'.leading, atLeading, s'.point, atPoint, ?_⟩
    rw [← weight, ← mark]

theorem step_eq_ok : (method.step config f () s).outcome = .ok s' ↔
    ∃ gradient, f.gradient s.point = .ok gradient ∧ Moves config s gradient s' := by
  change ((do update config s (← f.gradient s.point) : Checked (State α)) : Work α _).outcome = .ok s' ↔ _
  rw [Work.outcome_checked_eq_ok, Outcome.bind_eq_ok]
  simp only [update_eq_ok]

/-- Both points have the dimension of the problem. -/
structure Sized (n : Nat) (s : State α) : Prop where
  point : s.point.size = n
  leading : s.leading.size = n

theorem Sized.step_ok {n : Nat} (sized : Sized n s) (conforming : f.Conforming n) (config : Config α) :
    ∃ gradient s', f.gradient s.point = .ok gradient ∧ Moves config s gradient s' ∧ Sized n s' := by
  obtain ⟨gradient, atGradient, gradientSize⟩ := conforming.gradient s.point sized.point
  obtain ⟨leading, atLeading, leadingSize⟩ := Coords.advance_ok sized.point gradientSize (-config.rate)
  obtain ⟨point, atPoint, pointSize⟩ := Coords.add_ok
    ((Coords.size_map (· * (1 - mix s.weight)) leading).trans leadingSize)
    ((Coords.size_map (· * mix s.weight) s.leading).trans sized.leading)
  exact ⟨gradient, ⟨point, leading, nextWeight s.weight, s.finished⟩, atGradient,
    ⟨atLeading, atPoint, rfl, rfl⟩, pointSize, leadingSize⟩

end

variable {n : Nat} {config : Config ℝ} {f : Objective ℝ} {x z gradient : Coords ℝ} {s s' : State ℝ}
  {L : ℝ}

/-- The point beyond the iterate, seen from the leading point, by the weight. -/
noncomputable def ahead (n : Nat) (s : State ℝ) : Fin n → ℝ :=
  s.weight • s.point.vec n - (s.weight - 1) • s.leading.vec n

/-- Whatever the mix was, the point ahead moves along the gradient by the weight times the rate. -/
theorem Moves.ahead_eq (moves : Moves config s gradient s') (n : Nat) :
    ahead n s' = ahead n s + -(s.weight * config.rate) • gradient.vec n := by
  have positive : nextWeight s.weight ≠ 0 := (zero_lt_one.trans_le (one_le_nextWeight s.weight)).ne'
  have share : nextWeight s.weight * mix s.weight = 1 - s.weight := mul_div_cancel₀ _ positive
  funext i
  simp only [ahead, moves.weight_eq, Coords.vec_add moves.point_eq, Coords.vec_scale,
    Coords.vec_advance moves.leading_eq, Pi.add_apply, Pi.sub_apply, Pi.smul_apply, smul_eq_mul]
  linear_combination (s.leading.vec n i - (s.point.vec n i + -config.rate * gradient.vec n i)) * share

section

variable (sized : Sized n s) (atGradient : f.gradient s.point = .ok gradient)
  (moves : Moves config s gradient s')

include sized atGradient moves

/-- A step no longer than the smoothness allows takes the leading point below every tangent value, by
half the rate times the squared gradient. -/
theorem Moves.leading_le (conforming : f.Conforming n) (convex : f.Convex n) (smooth : f.Smooth L n)
    (positive : 0 < config.rate) (short : config.rate * L ≤ 1) {y : Coords ℝ} (size : y.size = n)
    {fy fl : ℝ} (there : f.value y = .ok fy) (atLeading : f.value s'.leading = .ok fl) :
    fl ≤ fy - gradient.vec n ⬝ᵥ (y.vec n - s.point.vec n) -
      0.5 * config.rate * (gradient.vec n ⬝ᵥ gradient.vec n) := by
  obtain ⟨fx, here⟩ := conforming.value s.point sized.point
  have leadingSize : s'.leading.size = n := (Coords.size_combine moves.leading_eq).2.trans sized.point
  have tangent := convex s.point y fx fy gradient sized.point size here there atGradient
  have rise := smooth s.point s'.leading fx fl gradient sized.point leadingSize here atLeading atGradient
  have way : s'.leading.vec n - s.point.vec n = -config.rate • gradient.vec n := by
    rw [Coords.vec_advance moves.leading_eq, add_sub_cancel_left]
  rw [way, dotProduct_smul, smul_dotProduct, dotProduct_smul] at rise
  simp only [smul_eq_mul] at rise
  have square : 0 ≤ gradient.vec n ⬝ᵥ gradient.vec n := Finset.sum_nonneg fun i _ => mul_self_nonneg _
  have shorter := mul_le_mul_of_nonneg_right short (mul_nonneg positive.le square)
  linarith

/-- Already one step, taken for itself, comes as near to any other value as its length allows. -/
theorem Moves.leading_reaches (conforming : f.Conforming n) (convex : f.Convex n) (smooth : f.Smooth L n)
    (positive : 0 < config.rate) (short : config.rate * L ≤ 1) {y : Coords ℝ} (size : y.size = n)
    {fy fl : ℝ} (there : f.value y = .ok fy) (atLeading : f.value s'.leading = .ok fl) :
    config.rate * (fl - fy) ≤ 0.5 * sqDist (y.vec n) (s.point.vec n) := by
  have below := moves.leading_le sized atGradient conforming convex smooth positive short size there atLeading
  have scaled := mul_le_mul_of_nonneg_left below positive.le
  have apart := sqDist_nonneg (y.vec n) (s.point.vec n + -config.rate • gradient.vec n)
  rw [sqDist_moved] at apart
  linarith

end

/-- With its weight, the objective at the leading point above another of its values and the point ahead
are together within reach of the start. -/
def Bounded (f : Objective ℝ) (rate : ℝ) (n : Nat) (x z : Coords ℝ) (s : State ℝ) : Prop :=
  ∀ fl fz, f.value s.leading = .ok fl → f.value z = .ok fz →
    rate * (s.weight * (s.weight - 1)) * (fl - fz) + 0.5 * sqDist (z.vec n) (ahead n s) ≤
      0.5 * sqDist (z.vec n) (x.vec n)

/-- What every state carries on. The weight is zero at the start, and from then on at least one. -/
structure Carries (f : Objective ℝ) (rate : ℝ) (n : Nat) (x z : Coords ℝ) (s : State ℝ) : Prop where
  sized : Sized n s
  weight : s.weight = 0 ∨ 1 ≤ s.weight
  bounded : Bounded f rate n x z s

theorem carries_start (f : Objective ℝ) (rate : ℝ) (z : Coords ℝ) (size : x.size = n) :
    Carries f rate n x z (.initial x) := by
  have still : ahead n (.initial x) = x.vec n := by
    simp [ahead, State.initial]
  refine ⟨⟨size, size⟩, Or.inl rfl, fun fl fz _ _ => ?_⟩
  rw [still]
  simp [State.initial]

section

variable (conforming : f.Conforming n) (convex : f.Convex n) (smooth : f.Smooth L n)
  (positive : 0 < config.rate) (short : config.rate * L ≤ 1)

include conforming convex smooth positive short

/-- The potential does not grow in a step. -/
theorem Carries.step (carries : Carries f config.rate n x z s) (size : z.size = n)
    (atGradient : f.gradient s.point = .ok gradient) (moves : Moves config s gradient s')
    (sized : Sized n s') : Carries f config.rate n x z s' := by
  refine ⟨sized, Or.inr (moves.weight_eq ▸ one_le_nextWeight _), fun fl fz atLeading there => ?_⟩
  obtain ⟨fy, before⟩ := conforming.value s.leading carries.sized.leading
  have carried := carries.bounded fy fz before there
  have fromLeading := moves.leading_le carries.sized atGradient conforming convex smooth positive short
    carries.sized.leading before atLeading
  have fromOther := moves.leading_le carries.sized atGradient conforming convex smooth positive short
    size there atLeading
  have nonneg : 0 ≤ s.weight := carries.weight.elim (·.ge) zero_le_one.trans
  have product : 0 ≤ s.weight * (s.weight - 1) := by
    rcases carries.weight with zero | one
    · rw [zero, zero_mul]
    · exact mul_nonneg nonneg (sub_nonneg.mpr one)
  have weighted := add_le_add (mul_le_mul_of_nonneg_left fromLeading product)
    (mul_le_mul_of_nonneg_left fromOther nonneg)
  -- Both ways, in the proportion of the weights, make up the way from the point ahead.
  have way : z.vec n - ahead n s = (s.weight - 1) • (s.leading.vec n - s.point.vec n) +
      (z.vec n - s.point.vec n) := by
    funext i
    simp only [ahead, Pi.add_apply, Pi.sub_apply, Pi.smul_apply, smul_eq_mul]
    ring
  have scaled := mul_le_mul_of_nonneg_left weighted positive.le
  rw [moves.ahead_eq, sqDist_moved, way, dotProduct_add, dotProduct_smul, smul_eq_mul, moves.weight_eq,
    nextWeight_mul_sub_one]
  linarith

theorem carries_after (size : x.size = n) (other : z.size = n) (k : Nat) :
    ∃ s, method.after config f x () k = .ok (s, ()) ∧ Carries f config.rate n x z s ∧
      (k ≠ 0 → ((k : ℝ) + 1) / 2 ≤ s.weight) := by
  induction k with
  | zero => exact ⟨.initial x, rfl, carries_start f config.rate z size, fun nonzero => absurd rfl nonzero⟩
  | succ k ih =>
    obtain ⟨s, reached, carries, heavy⟩ := ih
    obtain ⟨gradient, s', atGradient, moves, sized⟩ := carries.sized.step_ok conforming config
    have made := step_eq_ok.mpr ⟨gradient, atGradient, moves⟩
    refine ⟨s', Method.after_succ_eq_ok.mpr ⟨s, (), reached, made, rfl⟩,
      carries.step conforming convex smooth positive short other atGradient moves sized, fun _ => ?_⟩
    rw [moves.weight_eq]
    push_cast
    rcases Nat.eq_zero_or_pos k with rfl | above
    · norm_num
      exact one_le_nextWeight _
    · linarith [heavy above.ne', add_half_le_nextWeight s.weight]

end

theorem le_add_div_of_weighted {rate w m a b d : ℝ} (positive : 0 < rate) (strict : 0 < m) (half : m / 2 ≤ w)
    (nonneg : 0 ≤ d) (weighted : rate * w ^ 2 * (a - b) ≤ 0.5 * d) : a ≤ b + 2 * d / (rate * m ^ 2) := by
  have scale : 0 < rate * m ^ 2 := by positivity
  rcases le_total a b with below | above
  · exact below.trans (le_add_of_nonneg_right (by positivity))
  · have squares : m ^ 2 ≤ 4 * w ^ 2 := by nlinarith
    have lighter := mul_le_mul_of_nonneg_left squares (mul_nonneg positive.le (sub_nonneg.mpr above))
    rw [← sub_le_iff_le_add', le_div_iff₀ scale]
    linarith

/-- After `k` steps on a convex and smooth objective, at a rate of at most the inverse of its constant, the
objective at the leading point exceeds any value by at most twice the squared distance of the start from where
that value is taken, over the rate and the square of `k`. -/
theorem inverse_square_rate (config : Config ℝ) (f : Objective ℝ) (x z : Coords ℝ) (L : ℝ) (k : Nat)
    (conforming : f.Conforming x.size) (convex : f.Convex x.size) (smooth : f.Smooth L x.size)
    (bounded : 0 < L) (positive : 0 < config.rate) (short : config.rate ≤ 1 / L) (size : z.size = x.size)
    (advanced : 1 ≤ k) :
    ∃ (s : State ℝ) (fl fz : ℝ) (e : Coords ℝ), method.after config f x () k = .ok (s, ()) ∧
      f.value s.leading = .ok fl ∧ f.value z = .ok fz ∧ x.sub z = .ok e ∧
      fl ≤ fz + 2 * e.norm ^ 2 / (config.rate * k ^ 2) := by
  have product : config.rate * L ≤ 1 := (le_div_iff₀ bounded).mp short
  obtain ⟨j, rfl⟩ : ∃ j, k = j + 1 := ⟨k - 1, by omega⟩
  obtain ⟨before, reached, carries, heavy⟩ :=
    carries_after conforming convex smooth positive product rfl size j
  obtain ⟨gradient, s, atGradient, moves, sized⟩ := carries.sized.step_ok conforming config
  obtain ⟨fl, atLeading⟩ := conforming.value s.leading sized.leading
  obtain ⟨fz, there⟩ := conforming.value z size
  obtain ⟨e, apart, _⟩ := Coords.sub_ok rfl size
  have made := step_eq_ok.mpr ⟨gradient, atGradient, moves⟩
  refine ⟨s, fl, fz, e, Method.after_succ_eq_ok.mpr ⟨before, (), reached, made, rfl⟩, atLeading, there,
    apart, ?_⟩
  rw [Coords.sq_norm_of_sub rfl apart, sqDist_comm]
  have count : (0 : ℝ) < (j + 1 : ℕ) := Nat.cast_pos.mpr j.succ_pos
  rcases Nat.eq_zero_or_pos j with rfl | later
  · -- The first step returns to the start, whose weight is zero; it is a gradient step.
    obtain rfl : State.initial x = before := congrArg Prod.fst (Except.ok.inj reached)
    refine le_add_div_of_weighted (w := 1) positive count (by norm_num) (sqDist_nonneg _ _) ?_
    rw [one_pow, mul_one]
    exact moves.leading_reaches carries.sized atGradient conforming convex smooth positive product size there
      atLeading
  · have grown := heavy later.ne'
    refine le_add_div_of_weighted (w := before.weight) positive count (by push_cast; linarith)
      (sqDist_nonneg _ _) ?_
    have potential := (carries.step conforming convex smooth positive product size atGradient moves
      sized).bounded fl fz atLeading there
    rw [moves.weight_eq, nextWeight_mul_sub_one] at potential
    linarith [sqDist_nonneg (z.vec x.size) (ahead x.size s)]

/-- Ten steps from one towards zero, at half the largest rate. -/
theorem inverse_square_rate_bowl : ∃ (s : State ℝ) (fl fz : ℝ) (e : Coords ℝ),
    method.after ⟨0.5⟩ (.halfSquare 1) (.constant 1 1) () 10 = .ok (s, ()) ∧
      (Objective.halfSquare 1).value s.leading = .ok fl ∧
      (Objective.halfSquare 1).value (.zeros 1) = .ok fz ∧
      (Coords.constant 1 1).sub (.zeros 1) = .ok e ∧ fl ≤ fz + e.norm ^ 2 / 25 := by
  have same : (Coords.zeros 1 : Coords ℝ).size = (Coords.constant 1 1 : Coords ℝ).size :=
    (Coords.size_constant 1 _).trans (Coords.size_constant 1 _).symm
  obtain ⟨s, fl, fz, e, reached, atLeading, there, apart, rate⟩ :=
    inverse_square_rate ⟨0.5⟩ (.halfSquare 1) (.constant 1 1) (.zeros 1) 1 10
      (Objective.halfSquare_conforming 1) (Objective.halfSquare_convex 1) (Objective.halfSquare_smooth 1)
      one_pos (by norm_num) (by norm_num) same (by norm_num)
  refine ⟨s, fl, fz, e, reached, atLeading, there, apart, ?_⟩
  norm_num at rate
  linarith

end Downhill.Acceleration
