import Downhill.Proofs.Problems

namespace Downhill

variable {n : Nat}

def sqDist (u v : Fin n → ℝ) : ℝ :=
  (u - v) ⬝ᵥ (u - v)

theorem sqDist_eq_sum (u v : Fin n → ℝ) : sqDist u v = ∑ i, (u i - v i) ^ 2 := by
  simp only [sqDist, dotProduct, Pi.sub_apply, sq]

theorem sqDist_nonneg (u v : Fin n → ℝ) : 0 ≤ sqDist u v := by
  rw [sqDist_eq_sum]
  exact Finset.sum_nonneg fun _ _ => sq_nonneg _

theorem sqDist_pos {u v : Fin n → ℝ} (apart : u ≠ v) : 0 < sqDist u v := by
  refine lt_of_le_of_ne (sqDist_nonneg u v) fun zero => apart ?_
  exact sub_eq_zero.mp (dotProduct_self_eq_zero.mp zero.symm)

theorem sqDist_comm (u v : Fin n → ℝ) : sqDist u v = sqDist v u := by
  rw [sqDist, sqDist, ← neg_sub v u, neg_dotProduct_neg]

theorem sqDist_between (p y u : Fin n → ℝ) (s : ℝ) :
    sqDist ((1 - s) • p + s • y) u =
      (1 - s) * sqDist p u + s * sqDist y u - s * (1 - s) * sqDist y p := by
  simp only [sqDist_eq_sum, Finset.mul_sum, ← Finset.sum_add_distrib, ← Finset.sum_sub_distrib]
  refine Finset.sum_congr rfl fun i _ => ?_
  simp only [Pi.add_apply, Pi.smul_apply, smul_eq_mul]
  ring

theorem sqDist_moved (y v g : Fin n → ℝ) (t : ℝ) :
    sqDist y (v + -t • g) = sqDist y v + 2 * t * (g ⬝ᵥ (y - v)) + t ^ 2 * (g ⬝ᵥ g) := by
  simp only [sqDist_eq_sum, dotProduct, Finset.mul_sum, ← Finset.sum_add_distrib]
  refine Finset.sum_congr rfl fun i _ => ?_
  simp only [Pi.add_apply, Pi.sub_apply, Pi.smul_apply, smul_eq_mul]
  ring

theorem sqDist_through (y q u : Fin n → ℝ) :
    sqDist y u = sqDist y q + 2 * ((y - q) ⬝ᵥ (q - u)) + sqDist q u := by
  simp only [sqDist_eq_sum, dotProduct, Finset.mul_sum, ← Finset.sum_add_distrib]
  refine Finset.sum_congr rfl fun i _ => ?_
  simp only [Pi.sub_apply]
  ring

/-- Behind a corner that is not acute everything is further away than the corner. -/
theorem sqDist_lt_of_obtuse {u d v : Fin n → ℝ} (obtuse : 0 ≤ (u - d) ⬝ᵥ (d - v)) (apart : d ≠ v) :
    sqDist u d < sqDist u v := by
  have gap := sqDist_pos apart
  rw [sqDist_through u d v]
  linarith

theorem Coords.sq_norm_of_sub {x y e : Coords ℝ} (size : x.size = n) (made : x.sub y = .ok e) :
    e.norm ^ 2 = sqDist (x.vec n) (y.vec n) := by
  have nonneg := sqDist_nonneg (x.vec n) (y.vec n)
  rw [norm_eq ((size_combine made).2.trans size).le, vec_sub made]
  exact Real.sq_sqrt nonneg

theorem Coords.norm_of_sub {x y e : Coords ℝ} (size : x.size = n) (made : x.sub y = .ok e) :
    e.norm = √(sqDist (x.vec n) (y.vec n)) := by
  rw [← sq_norm_of_sub size made, Real.sqrt_sq e.norm_nonneg]

/-- A term of an objective in `n` coordinates: where it is finite, and its values there. -/
structure ProximalTerm (n : Nat) where
  domain : Set (Fin n → ℝ)
  value : (Fin n → ℝ) → ℝ

namespace ProximalTerm

variable {h : ProximalTerm n} {t : ℝ} {u q : Fin n → ℝ}

def Convex (h : ProximalTerm n) : Prop :=
  ConvexOn ℝ h.domain h.value

/-- The term plus the squared distance from the point over twice the scale is least at `q`. -/
structure Nearest (h : ProximalTerm n) (t : ℝ) (u q : Fin n → ℝ) : Prop where
  inside : q ∈ h.domain
  least : ∀ y ∈ h.domain, h.value q + sqDist q u / (2 * t) ≤ h.value y + sqDist y u / (2 * t)

/-- The map finds such a point for every point and every positive scale. -/
def IsExact (h : ProximalTerm n) (prox : Proximal ℝ) : Prop :=
  ∀ u t, u.size = n → 0 < t →
    ∃ q, prox u t = .ok q ∧ q.size = n ∧ h.Nearest t (u.vec n) (q.vec n)

/-- The objective plus the term is least at `z`. -/
structure Minimizer (h : ProximalTerm n) (f : Objective ℝ) (z : Coords ℝ) : Prop where
  size : z.size = n
  inside : z.vec n ∈ h.domain
  least : ∀ y fy fz, y.size = n → y.vec n ∈ h.domain → f.value y = .ok fy → f.value z = .ok fz →
    fz + h.value (z.vec n) ≤ fy + h.value (y.vec n)

theorem nonpos_of_le_shares {a b : ℝ} (small : ∀ s, 0 < s → s ≤ 1 → a ≤ s * b) : a ≤ 0 := by
  by_contra positive
  rw [not_le] at positive
  have below : a ≤ b := (small 1 one_pos le_rfl).trans_eq (one_mul b)
  have share : a / (2 * b) * b = a / 2 := by
    field_simp [(positive.trans_le below).ne']
  have half : a ≤ a / (2 * b) * b := by
    have twice : 0 < 2 * b := by linarith
    refine small _ (div_pos positive twice) ?_
    rw [div_le_one twice]
    linarith
  linarith

theorem Nearest.least_scaled (near : h.Nearest t u q) (positive : 0 < t) {y : Fin n → ℝ}
    (inside : y ∈ h.domain) : 2 * t * h.value q + sqDist q u ≤ 2 * t * h.value y + sqDist y u := by
  have twice : 0 < 2 * t := by linarith
  have scaled := mul_le_mul_of_nonneg_left (near.least y inside) twice.le
  rwa [mul_add, mul_add, mul_div_cancel₀ _ twice.ne', mul_div_cancel₀ _ twice.ne'] at scaled

/-- Every other point is worse than the nearest, by the squared distance between the two. -/
theorem Nearest.beats (near : h.Nearest t u q) (convex : h.Convex) (positive : 0 < t) {y : Fin n → ℝ}
    (inside : y ∈ h.domain) :
    2 * t * (h.value q - h.value y) ≤ sqDist y u - sqDist y q - sqDist q u := by
  have twice : 0 ≤ 2 * t := by linarith
  -- On the way to the other point the term rises at most evenly, the squared distance by less.
  have between : ∀ s, 0 < s → s ≤ 1 →
      2 * t * (h.value q - h.value y) - (sqDist y u - sqDist y q - sqDist q u) ≤ s * sqDist y q := by
    intro s above within
    have rest : 0 ≤ 1 - s := sub_nonneg.mpr within
    have member : (1 - s) • q + s • y ∈ h.domain :=
      convex.1 near.inside inside rest above.le (by ring)
    have rise : h.value ((1 - s) • q + s • y) ≤ (1 - s) * h.value q + s * h.value y :=
      convex.2 near.inside inside rest above.le (by ring)
    have weighted := mul_le_mul_of_nonneg_left rise twice
    have least := near.least_scaled positive member
    rw [sqDist_between] at least
    have shared : s * (2 * t * (h.value q - h.value y)) ≤
        s * (sqDist y u - sqDist q u - (1 - s) * sqDist y q) := by
      linarith
    linarith [le_of_mul_le_mul_left shared above]
  linarith [nonpos_of_le_shares between]

/-- Nothing where no coordinate is negative, and infinite elsewhere. -/
def orthant (n : Nat) : ProximalTerm n :=
  ⟨Set.Ici 0, fun _ => 0⟩

theorem orthant_convex (n : Nat) : (orthant n).Convex :=
  convexOn_const 0 (convex_Ici 0)

/-- No coordinate of the nearest point is below that of the point. -/
theorem Nearest.orthant_le (near : (orthant n).Nearest t u q) (positive : 0 < t) (i : Fin n) : u i ≤ q i := by
  -- One step further along the coordinate is no nearer.
  have inside : 0 ≤ q := near.inside
  have member : 0 ≤ q + Pi.single i 1 := add_nonneg inside (Pi.single_nonneg.mpr zero_le_one)
  have further := near.beats (orthant_convex n) positive member
  rw [sqDist_through _ q u, add_sub_cancel_left, single_dotProduct] at further
  change 2 * t * (0 - 0) ≤ _ at further
  simp only [Pi.sub_apply] at further
  linarith

/-- Behind a gradient step from one of the points the nearest point is no further away than the step is long. -/
theorem Nearest.orthant_close {v g : Fin n → ℝ} (near : (orthant n).Nearest t (v + -t • g) q) (positive : 0 < t)
    (inside : 0 ≤ v) : sqDist q v ≤ t ^ 2 * (g ⬝ᵥ g) := by
  have shorter := near.beats (orthant_convex n) positive inside
  change 2 * t * (0 - 0) ≤ _ at shorter
  rw [sqDist_moved, sqDist_comm v q] at shorter
  have still : sqDist v v = 0 := by simp [sqDist]
  have further := sqDist_nonneg q (v + -t • g)
  simp only [still, sub_self, dotProduct_zero, mul_zero] at shorter
  linarith

theorem nonnegative_isExact (n : Nat) : (orthant n).IsExact .nonnegative := by
  intro u t size positive
  have entries : (u.map (Scalar.atLeast 0)).vec n = fun i => max 0 (u.vec n i) := by
    funext i
    rw [Coords.vec_map (by simp), Scalar.atLeast_exact]
  refine ⟨_, rfl, (Coords.size_map _ u).trans size, ?_, fun y inside => ?_⟩
  · rw [entries]
    exact fun i => le_max_left 0 _
  · have closer : sqDist ((u.map (Scalar.atLeast 0)).vec n) (u.vec n) ≤ sqDist y (u.vec n) := by
      rw [entries, sqDist_eq_sum, sqDist_eq_sum]
      refine Finset.sum_le_sum fun i _ => ?_
      have above : 0 ≤ y i := inside i
      rcases le_total (u.vec n i) 0 with low | high
      · rw [max_eq_left low]
        nlinarith
      · rw [max_eq_right high, sub_self]
        nlinarith [sq_nonneg (y i - u.vec n i)]
    exact add_le_add_right (div_le_div_of_nonneg_right closer (by linarith)) _

/-- The weight times the sum of the absolute values of the coordinates. -/
def absolute (weight : ℝ) (n : Nat) : ProximalTerm n :=
  ⟨Set.univ, fun x => weight * ∑ i, |x i|⟩

theorem absolute_convex {weight : ℝ} (nonneg : 0 ≤ weight) (n : Nat) : (absolute weight n).Convex := by
  refine ⟨convex_univ, fun x _ y _ a b left right _ => ?_⟩
  have between : ∑ i, |(a • x + b • y) i| ≤ a * ∑ i, |x i| + b * ∑ i, |y i| := by
    rw [Finset.mul_sum, Finset.mul_sum, ← Finset.sum_add_distrib]
    refine Finset.sum_le_sum fun i _ => (abs_add_le _ _).trans_eq ?_
    simp [abs_mul, abs_of_nonneg left, abs_of_nonneg right]
  have weighted := mul_le_mul_of_nonneg_left between nonneg
  simp only [absolute, smul_eq_mul]
  linarith

/-- A value moved towards zero by a level, and no further. -/
noncomputable def shrunk (level v : ℝ) : ℝ :=
  Scalar.signum v * Scalar.atLeast 0 (Scalar.abs v - level)

theorem shrunk_of_le {level v : ℝ} (nonneg : 0 ≤ level) (long : level ≤ v) :
    shrunk level v = v - level := by
  have sign : (Scalar.signum v : ℝ) = 1 := if_neg (not_lt.mpr (nonneg.trans long))
  rw [shrunk, sign, one_mul, Scalar.atLeast_exact, Scalar.abs_exact, abs_of_nonneg (nonneg.trans long),
    max_eq_right (sub_nonneg.mpr long)]

theorem shrunk_least {level : ℝ} (nonneg : 0 ≤ level) (v y : ℝ) :
    2 * level * |shrunk level v| + (shrunk level v - v) ^ 2 ≤ 2 * level * |y| + (y - v) ^ 2 := by
  have sign : (Scalar.signum v : ℝ) = if v < 0 then -1 else 1 := rfl
  rw [shrunk, sign, Scalar.atLeast_exact, Scalar.abs_exact]
  rcases le_total |v| level with short | long
  · -- The value is moved to zero.
    rw [max_eq_left (sub_nonpos.mpr short), mul_zero, abs_zero]
    have bound : y * v ≤ |y| * level :=
      (le_abs_self _).trans ((abs_mul y v).trans_le (mul_le_mul_of_nonneg_left short (abs_nonneg y)))
    nlinarith [sq_nonneg y]
  · rw [max_eq_right (sub_nonneg.mpr long)]
    split
    · rename_i negative
      rw [abs_of_neg negative] at long ⊢
      rw [neg_one_mul, abs_neg, abs_of_nonneg (sub_nonneg.mpr long)]
      nlinarith [neg_abs_le y, sq_nonneg (y - v - level)]
    · rename_i positive
      rw [abs_of_nonneg (not_lt.mp positive)] at long ⊢
      rw [one_mul, abs_of_nonneg (sub_nonneg.mpr long)]
      nlinarith [le_abs_self y, sq_nonneg (y - v + level)]

theorem softThreshold_isExact {weight : ℝ} (nonneg : 0 ≤ weight) (n : Nat) :
    (absolute weight n).IsExact (.softThreshold weight) := by
  intro u t size positive
  have level : 0 ≤ weight * t := mul_nonneg nonneg positive.le
  have twice : 0 < 2 * t := by linarith
  have entries : ∀ i, (u.map (shrunk (weight * t))).vec n i = shrunk (weight * t) (u.vec n i) :=
    Coords.vec_map_of_size _ size
  refine ⟨u.map (shrunk (weight * t)), rfl, (Coords.size_map _ u).trans size, trivial, fun y _ => ?_⟩
  have total : 2 * t * (weight * ∑ i, |shrunk (weight * t) (u.vec n i)|) +
      ∑ i, (shrunk (weight * t) (u.vec n i) - u.vec n i) ^ 2 ≤
      2 * t * (weight * ∑ i, |y i|) + ∑ i, (y i - u.vec n i) ^ 2 := by
    simp only [Finset.mul_sum, ← Finset.sum_add_distrib]
    refine Finset.sum_le_sum fun i _ => ?_
    linarith [shrunk_least level (u.vec n i) (y i)]
  simp only [absolute, sqDist_eq_sum, entries]
  rw [← mul_le_mul_iff_right₀ twice, mul_add, mul_add, mul_div_cancel₀ _ twice.ne', mul_div_cancel₀ _ twice.ne']
  exact total

/-- The terms whose maps are at hand. -/
inductive Provided : ProximalTerm n → Proximal ℝ → Prop
  | absolute {weight : ℝ} (nonneg : 0 ≤ weight) : Provided (absolute weight n) (.softThreshold weight)
  | orthant : Provided (orthant n) .nonnegative

theorem Provided.convex {prox : Proximal ℝ} (provided : h.Provided prox) : h.Convex := by
  cases provided with
  | absolute nonneg => exact absolute_convex nonneg n
  | orthant => exact orthant_convex n

theorem Provided.isExact {prox : Proximal ℝ} (provided : h.Provided prox) : h.IsExact prox := by
  cases provided with
  | absolute nonneg => exact softThreshold_isExact nonneg n
  | orthant => exact nonnegative_isExact n

end ProximalTerm

end Downhill
