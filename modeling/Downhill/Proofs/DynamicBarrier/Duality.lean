import Downhill.Proofs.Closest
import Downhill.Proofs.DynamicBarrier.Dual
import Downhill.Proofs.SecondOrder

namespace Downhill.DynamicBarrier

/-- Multipliers that no constraint asks to change: none of them is negative, in none does the value fall, and
where one is positive the value does not change at all. -/
structure Dual.Settled (dual : Dual ℝ) (m : Nat) (l slope : Coords ℝ) : Prop where
  size : l.size = m
  slope_eq : dual.objective.gradient l = .ok slope
  inside : 0 ≤ l.vec m
  rising : 0 ≤ slope.vec m
  slack : ∀ i, 0 < l.vec m i → slope.vec m i = 0

section

variable {dual : Dual ℝ} {m n : Nat} (fits : dual.Fits m n)

include fits

theorem Dual.Fits.value_eq {l r : Coords ℝ} {v : ℝ} (size : l.size = m) (atResidual : dual.residual l = .ok r)
    (atValue : dual.objective.value l = .ok v) :
    v = 0.5 * (r.vec n ⬝ᵥ r.vec n) - l.vec m ⬝ᵥ dual.barrier.vec m := by
  obtain ⟨_, atResidual', rSize⟩ := fits.residual_ok size
  obtain rfl := Except.ok.inj (atResidual'.symm.trans atResidual)
  simp only [objective, value, atResidual, Outcome.bind_eq_ok, Outcome.pure_eq_ok, Except.ok.injEq,
    exists_eq_left'] at atValue
  obtain ⟨square, atSquare, weighted, atWeighted, rfl⟩ := atValue
  rw [(Coords.dot_eq rSize.le atSquare).2, (Coords.dot_eq size.le atWeighted).2]

omit fits in
theorem Dual.form_eq {K : Table ℝ}
    (product : K.mat m m = dual.jacobian.mat m n * (dual.jacobian.mat m n).transpose) (e : Fin m → ℝ) :
    e ⬝ᵥ (K.mat m m).mulVec e =
      (dual.jacobian.mat m n).transpose.mulVec e ⬝ᵥ (dual.jacobian.mat m n).transpose.mulVec e := by
  rw [product, ← Matrix.mulVec_mulVec, Matrix.dotProduct_mulVec, ← Matrix.mulVec_transpose]

/-- The problem is a polynomial of the second degree. -/
theorem Dual.Fits.paraboloid {K : Table ℝ} (constant : dual.objective.ConstantHessian K m)
    (product : K.mat m m = dual.jacobian.mat m n * (dual.jacobian.mat m n).transpose) :
    dual.objective.Paraboloid K m := by
  set J := dual.jacobian.mat m n
  refine ⟨constant.high, constant.wide, ?_, fun x y v w g xSize ySize here there slope => ?_⟩
  · rw [product, Matrix.IsSymm, Matrix.transpose_mul, Matrix.transpose_transpose]
  obtain ⟨r, atX, _⟩ := fits.residual_ok xSize
  obtain ⟨s, atY, _⟩ := fits.residual_ok ySize
  let e := y.vec m - x.vec m
  let turn := J.transpose.mulVec e
  have moved : s.vec n = r.vec n + turn := by
    have turned : turn = J.transpose.mulVec (y.vec m) - J.transpose.mulVec (x.vec m) := Matrix.mulVec_sub _ _ _
    rw [fits.vec_residual atX, fits.vec_residual atY, turned, add_assoc, add_sub_cancel]
  have tangent : g.vec m = J.mulVec (r.vec n) - dual.barrier.vec m := by
    rw [fits.vec_gradient slope, fits.vec_residual atX]
  have along : J.mulVec (r.vec n) ⬝ᵥ e = r.vec n ⬝ᵥ turn := by
    rw [Matrix.dotProduct_transpose_mulVec, dotProduct_comm]
  have bend : e ⬝ᵥ (K.mat m m).mulVec e = turn ⬝ᵥ turn := form_eq product e
  have weights : y.vec m = x.vec m + e := (add_sub_cancel _ _).symm
  rw [fits.value_eq xSize atX here, fits.value_eq ySize atY there, moved, tangent]
  change _ = _ + (_ - _) ⬝ᵥ e + 0.5 * (e ⬝ᵥ (K.mat m m).mulVec e)
  rw [bend, sub_dotProduct, along, weights, add_dotProduct, add_dotProduct, dotProduct_add, dotProduct_add,
    dotProduct_comm turn (r.vec n), dotProduct_comm e (dual.barrier.vec m)]
  ring

/-- From the least multipliers the value falls towards no others that are not negative. -/
theorem Dual.Fits.slope_nonneg {l slope : Coords ℝ} (least : (ProximalTerm.orthant m).Minimizer dual.objective l)
    (atSlope : dual.objective.gradient l = .ok slope) {y : Fin m → ℝ} (inside : 0 ≤ y) :
    0 ≤ slope.vec m ⬝ᵥ (y - l.vec m) := by
  obtain ⟨K, product, constant⟩ := fits.constantHessian
  have paraboloid := fits.paraboloid constant product
  obtain ⟨v, here⟩ := fits.conforming.value l least.size
  refine paraboloid.slope_nonneg fits.conforming least.size here atSlope
    fun s positive within z w zSize way there => ?_
  have between : z.vec m = (1 - s) • l.vec m + s • y := by
    rw [way, smul_sub, sub_smul, one_smul]
    abel
  have member : 0 ≤ z.vec m := by
    rw [between]
    exact add_nonneg (smul_nonneg (sub_nonneg.mpr within) least.inside) (smul_nonneg positive.le inside)
  have above : v + 0 ≤ w + 0 := least.least z w v zSize member there here
  simpa using above

/-- Least multipliers are settled. -/
theorem Dual.Fits.settled_of_minimizer {l : Coords ℝ}
    (least : (ProximalTerm.orthant m).Minimizer dual.objective l) : ∃ slope, dual.Settled m l slope := by
  obtain ⟨slope, atSlope, _⟩ := fits.conforming.gradient l least.size
  have inside : 0 ≤ l.vec m := least.inside
  have rising : 0 ≤ slope.vec m := by
    intro i
    have member : 0 ≤ l.vec m + Pi.single i 1 := add_nonneg inside (Pi.single_nonneg.mpr zero_le_one)
    have further := fits.slope_nonneg least atSlope member
    rwa [add_sub_cancel_left, dotProduct_single_one] at further
  -- Without any multipliers the value is no lower either, so no positive one has a slope.
  have back := fits.slope_nonneg least atSlope le_rfl
  rw [zero_sub, dotProduct_neg, neg_nonneg] at back
  have products : ∀ i ∈ Finset.univ, 0 ≤ slope.vec m i * l.vec m i := fun i _ => mul_nonneg (rising i) (inside i)
  have zero := (Finset.sum_eq_zero_iff_of_nonneg products).mp (back.antisymm (Finset.sum_nonneg products))
  refine ⟨slope, least.size, atSlope, inside, rising, fun i positive => ?_⟩
  exact (mul_eq_zero.mp (zero i (Finset.mem_univ i))).resolve_right positive.ne'

variable {l slope d : Coords ℝ} (settled : dual.Settled m l slope)

include settled

omit fits in
theorem Dual.Settled.dotProduct_eq_zero : l.vec m ⬝ᵥ slope.vec m = 0 := by
  refine Finset.sum_eq_zero fun i _ => ?_
  rcases (settled.inside i).lt_or_eq with positive | zero
  · rw [settled.slack i positive, mul_zero]
  · rw [← zero, Pi.zero_apply, zero_mul]

theorem Dual.Settled.mulVec_direction (found : direction dual.gradient dual.jacobian l = .ok d) :
    (dual.jacobian.mat m n).mulVec (d.vec n) = -dual.barrier.vec m - slope.vec m := by
  rw [fits.vec_direction found, fits.mulVec_turned settled.slope_eq]

theorem Dual.Settled.closest (found : direction dual.gradient dual.jacobian l = .ok d) :
    dual.gradient.neg.Closest (fun v => v.size = n ∧
      ∀ i, dual.jacobian.mat m n i ⬝ᵥ v.vec n ≤ -dual.barrier.vec m i) d := by
  have demanded := settled.mulVec_direction fits found
  obtain ⟨e, found', eSize⟩ := fits.direction_ok settled.size
  have size : d.size = n := Except.ok.inj (found'.symm.trans found) ▸ eSize
  refine Coords.closest_of_sqDist ((Coords.size_neg _).trans fits.gradient) (fun _ belongs => belongs.1)
    ⟨size, fun i => ?_⟩ fun v ⟨_, meets⟩ apart => ?_
  · have entry := congrFun demanded i
    have rising : 0 ≤ slope.vec m i := settled.rising i
    simp only [Pi.sub_apply, Pi.neg_apply] at entry
    exact entry.trans_le (by linarith)
  · refine sqDist_lt_of_obtuse ?_ apart
    -- What is left of the reversed gradient is a combination of the rows, with weights that are not negative.
    have rest : dual.gradient.neg.vec n - d.vec n =
        (dual.jacobian.mat m n).transpose.mulVec (l.vec m) := by
      rw [Coords.vec_neg, fits.vec_direction found, sub_sub_cancel]
    have spare : 0 ≤ l.vec m ⬝ᵥ (-dual.barrier.vec m - (dual.jacobian.mat m n).mulVec (v.vec n)) :=
      Finset.sum_nonneg fun i _ => mul_nonneg (settled.inside i) (sub_nonneg.mpr (meets i))
    rw [rest, Matrix.mulVec_transpose, ← Matrix.dotProduct_mulVec, Matrix.mulVec_sub, demanded, sub_right_comm,
      dotProduct_sub, settled.dotProduct_eq_zero, sub_zero]
    exact spare

/-- Everywhere else among the multipliers that are not negative the value is higher, by half the squared length
of what the rows make of the displacement. -/
theorem Dual.Settled.rise {y : Coords ℝ} {v w : ℝ} (size : y.size = m) (member : 0 ≤ y.vec m)
    (here : dual.objective.value l = .ok v) (there : dual.objective.value y = .ok w) :
    v + 0.5 * ((dual.jacobian.mat m n).transpose.mulVec (y.vec m - l.vec m) ⬝ᵥ
      (dual.jacobian.mat m n).transpose.mulVec (y.vec m - l.vec m)) ≤ w := by
  obtain ⟨K, product, constant⟩ := fits.constantHessian
  have raised := (fits.paraboloid constant product).rise l y v w slope settled.size size here there settled.slope_eq
  have across : 0 ≤ slope.vec m ⬝ᵥ y.vec m := Finset.sum_nonneg fun i _ => mul_nonneg (settled.rising i) (member i)
  have along : slope.vec m ⬝ᵥ (y.vec m - l.vec m) = slope.vec m ⬝ᵥ y.vec m := by
    rw [dotProduct_sub, dotProduct_comm _ (l.vec m), settled.dotProduct_eq_zero, sub_zero]
  rw [Dual.form_eq product, along] at raised
  linarith

theorem Dual.Settled.minimizer : (ProximalTerm.orthant m).Minimizer dual.objective l := by
  refine ⟨settled.size, settled.inside, fun y w v size member there here => ?_⟩
  have raised := settled.rise fits size member here there
  have square : 0 ≤ (dual.jacobian.mat m n).transpose.mulVec (y.vec m - l.vec m) ⬝ᵥ
      (dual.jacobian.mat m n).transpose.mulVec (y.vec m - l.vec m) :=
    Finset.sum_nonneg fun i _ => mul_self_nonneg _
  change v + 0 ≤ w + 0
  linarith

end

/-- The Hessian is applied to a displacement one factor after the other. -/
theorem Dual.hessianActs (dual : Dual ℝ) (m : Nat) : dual.objective.HessianActs m :=
  fun _ v _ _ _ made => Table.apply_mul made v

/-- The value of the multiplier problem is what value, gradient and Hessian say of it. The direction of its
least multipliers meets every demand, exactly where the multiplier is positive, and of all that meet every
demand it is the one closest to the reversed gradient. -/
theorem multipliers_dual_to_direction (gradient barrier : Coords ℝ) (J : Table ℝ) (left : gradient.size = J.width)
    (right : barrier.size = J.height) :
    let dual : Dual ℝ := ⟨gradient, J, barrier⟩
    let m := J.height
    let n := J.width
    dual.objective.OwnExpansion m ∧
    (∃ K, K.height = m ∧ K.width = m ∧ K.mat m m = J.mat m n * (J.mat m n).transpose ∧
      ∀ l v, l.size = m → v.size = m →
        dual.objective.hessian l = .ok K ∧ ∃ w, dual.objective.curvature l v = .ok w ∧ K.apply v = .ok w) ∧
    ∀ l, (ProximalTerm.orthant m).Minimizer dual.objective l → ∃ d, direction gradient J l = .ok d ∧
      (∀ i, J.mat m n i ⬝ᵥ d.vec n ≤ -barrier.vec m i) ∧
      (∀ i, 0 < l.vec m i → J.mat m n i ⬝ᵥ d.vec n = -barrier.vec m i) ∧
      gradient.neg.Closest (fun v => v.size = n ∧ ∀ i, J.mat m n i ⬝ᵥ v.vec n ≤ -barrier.vec m i) d := by
  intro dual m n
  have fits : dual.Fits m n := ⟨left, rfl, rfl, right⟩
  obtain ⟨K, product, constant⟩ := fits.constantHessian
  have made : ∀ l, l.size = m → dual.objective.hessian l = .ok K := constant.hessian
  refine ⟨(fits.paraboloid constant product).ownExpansion fits.conforming made, ⟨K, constant.high, constant.wide,
    product, fun l v size fit => ⟨made l size, ?_⟩⟩, fun l least => ?_⟩
  · obtain ⟨w, applied, _⟩ := Table.apply_ok (A := K) (constant.wide.trans fit.symm)
    exact ⟨w, (dual.hessianActs m l v K size fit (made l size)).trans applied, applied⟩
  · obtain ⟨slope, settled⟩ := fits.settled_of_minimizer least
    obtain ⟨d, found, _⟩ := fits.direction_ok (least.size)
    have closest := settled.closest fits found
    have demanded := settled.mulVec_direction fits found
    refine ⟨d, found, closest.belongs.2, fun i positive => ?_, closest⟩
    have entry : J.mat m n i ⬝ᵥ d.vec n = -barrier.vec m i - slope.vec m i := congrFun demanded i
    rw [entry, settled.slack i positive, sub_zero]

/-- Two constraints on one coordinate, of which the one holds when the other does: it has no multiplier, and the
direction meets it with room to spare. -/
theorem multipliers_dual_to_direction_dependent :
    let J : Table ℝ := .ofFn 2 2 ![![1, 0], ![2, 0]]
    let gradient : Coords ℝ := .ofFn ![-3, 1]
    let dual : Dual ℝ := ⟨gradient, J, .constant 2 (-1)⟩
    (ProximalTerm.orthant 2).Minimizer dual.objective (.ofFn ![0, 5 / 4]) ∧
      direction gradient J (.ofFn ![0, 5 / 4]) = .ok (.ofFn ![1 / 2, -1]) ∧
      dual.objective.OwnExpansion 2 ∧
      gradient.neg.Closest (fun v => v.size = 2 ∧ ∀ i, J.mat 2 2 i ⬝ᵥ v.vec 2 ≤ 1) (.ofFn ![1 / 2, -1]) := by
  intro J gradient dual
  let l : Coords ℝ := .ofFn ![0, 5 / 4]
  have high : J.height = 2 := Table.height_ofFn _ _ _
  have matrix : J.mat 2 2 = !![1, 0; 2, 0] := Table.mat_ofFn _
  have barrier : (Coords.constant 2 (-1) : Coords ℝ).size = 2 := Coords.size_constant _ _
  have fits : dual.Fits 2 2 := ⟨Coords.size_ofFn _, high, rfl, barrier⟩
  obtain ⟨slope, atSlope, _⟩ := fits.conforming.gradient l (Coords.size_ofFn _)
  have entries : slope.vec 2 = ![1 / 2, 0] := by
    have lVec : l.vec 2 = ![0, 5 / 4] := Coords.vec_ofFn _
    have gVec : gradient.vec 2 = ![-3, 1] := Coords.vec_ofFn _
    rw [fits.vec_gradient atSlope, matrix, lVec, gVec, Coords.vec_constant]
    funext i
    fin_cases i <;> norm_num [Matrix.mulVec, dotProduct, Fin.sum_univ_two]
  have settled : dual.Settled 2 l slope := by
    refine ⟨Coords.size_ofFn _, atSlope, ?_, ?_, fun i positive => ?_⟩
    · rw [Coords.vec_ofFn]
      intro i
      fin_cases i <;> norm_num
    · rw [entries]
      intro i
      fin_cases i <;> norm_num
    · rw [Coords.vec_ofFn] at positive
      rw [entries]
      fin_cases i
      · norm_num at positive
      · rfl
  have least := settled.minimizer fits
  obtain ⟨expands, _, directions⟩ :=
    multipliers_dual_to_direction gradient (.constant 2 (-1)) J (Coords.size_ofFn _) (barrier.trans high.symm)
  rw [high] at directions expands
  obtain ⟨d, found, _, _, closest⟩ := directions l least
  have atD : d = .ofFn ![1 / 2, -1] := by
    refine Coords.eq_of_vec (n := 2) closest.belongs.1 (Coords.size_ofFn _) ?_
    have lVec : l.vec 2 = ![0, 5 / 4] := Coords.vec_ofFn _
    have gVec : gradient.vec 2 = ![-3, 1] := Coords.vec_ofFn _
    rw [fits.vec_direction found, matrix, lVec, gVec, Coords.vec_ofFn]
    funext i
    fin_cases i <;> norm_num [Matrix.mulVec, dotProduct, Fin.sum_univ_two]
  subst atD
  have demand : ∀ i, -(Coords.constant 2 (-1) : Coords ℝ).vec 2 i = 1 := by simp
  simp only [demand] at closest
  exact ⟨least, found, expands, closest⟩

end Downhill.DynamicBarrier
