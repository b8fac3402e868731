import Downhill.Proofs.Problems

namespace Downhill

/-- One Hessian at all points with `n` coordinates, and gradients that differ by its product with the
displacement. -/
structure Objective.ConstantHessian (f : Objective ℝ) (H : Table ℝ) (n : Nat) : Prop where
  high : H.height = n
  wide : H.width = n
  hessian : ∀ x, x.size = n → f.hessian x = .ok H
  gradient : ∀ x y gx gy, x.size = n → y.size = n → f.gradient x = .ok gx → f.gradient y = .ok gy →
    gy.vec n = gx.vec n + (H.mat n n).mulVec (y.vec n - x.vec n)

/-- One Jacobian at all points with `n` coordinates, values that differ by its product with the
displacement, and no second derivatives. -/
structure Constraints.Affine (c : Constraints ℝ) (J : Table ℝ) (n : Nat) : Prop where
  jacobian : ∀ x, x.size = n → c.jacobian x = .ok J
  values : ∀ x y vx vy, x.size = n → y.size = n → c.values x = .ok vx → c.values y = .ok vy →
    vy.vec c.count = vx.vec c.count + (J.mat c.count n).mulVec (y.vec n - x.vec n)
  curvature : ∀ x l Z, x.size = n → l.size = c.count → c.curvature x l = .ok Z → Z.mat n n = 0

/-- Half the form of a matrix at the displacement from a center, with the derivatives of that. -/
structure Objective.IsQuadratic (f : Objective ℝ) (A : Table ℝ) (c : Coords ℝ) : Prop where
  high : A.height = c.size
  wide : A.width = c.size
  conforming : f.Conforming c.size
  expands : f.Expands c.size
  value : ∀ x v, x.size = c.size → f.value x = .ok v →
    v = 0.5 * ((x.vec c.size - c.vec c.size) ⬝ᵥ (A.mat c.size c.size).mulVec (x.vec c.size - c.vec c.size))
  gradient : ∀ x g, x.size = c.size → f.gradient x = .ok g →
    g.vec c.size = (A.mat c.size c.size).mulVec (x.vec c.size - c.vec c.size)
  hessian : ∀ x, x.size = c.size → f.hessian x = .ok A

theorem Objective.ConstantHessian.symmetricHessians {f : Objective ℝ} {H : Table ℝ} {n : Nat}
    (constant : f.ConstantHessian H n) (symmetric : (H.mat n n).IsSymm) : f.SymmetricHessians n :=
  fun x fits => ⟨H, constant.hessian x fits, constant.high, constant.wide, symmetric⟩

namespace Objective.IsQuadratic

variable {f : Objective ℝ} {A : Table ℝ} {c x y : Coords ℝ} {v w : ℝ} (quadratic : f.IsQuadratic A c)

include quadratic

/-- Along a ray from the center the value grows with the square of the distance. -/
theorem value_ray (here : f.value x = .ok v) (there : f.value y = .ok w) (fits : x.size = c.size)
    (same : y.size = c.size) {t : ℝ} (ray : y.vec c.size - c.vec c.size = t • (x.vec c.size - c.vec c.size)) :
    w = t ^ 2 * v := by
  rw [quadratic.value y w same there, quadratic.value x v fits here, ray, Matrix.mulVec_smul, smul_dotProduct,
    dotProduct_smul, smul_eq_mul, smul_eq_mul]
  ring

theorem value_center : f.value c = .ok 0 := by
  obtain ⟨v, there⟩ := quadratic.conforming.value c rfl
  have form := quadratic.value c v rfl there
  rw [sub_self, zero_dotProduct, mul_zero] at form
  exact form ▸ there

variable (definite : (A.mat c.size c.size).PosDef)

include definite

/-- The center is the only minimizer. -/
theorem least (fits : x.size = c.size) (here : f.value x = .ok v) : 0 ≤ v ∧ (v = 0 → x = c) := by
  have form := quadratic.value x v fits here
  by_cases same : x.vec c.size - c.vec c.size = 0
  · have center : x = c := Coords.eq_of_vec fits rfl (sub_eq_zero.mp same)
    rw [same, zero_dotProduct, mul_zero] at form
    exact ⟨form.ge, fun _ => center⟩
  · have positive := definite.dotProduct_mulVec_pos same
    rw [star_trivial] at positive
    have above : 0 < v := form ▸ mul_pos (by norm_num) positive
    exact ⟨above.le, fun zero => absurd zero above.ne'⟩

end Objective.IsQuadratic

section Families

variable {A : Table ℝ} {n : Nat}

theorem Objective.quadratic_constantHessian (center : Coords ℝ) (high : A.height = n) (wide : A.width = n) :
    (Objective.quadratic A center).ConstantHessian A n := by
  refine ⟨high, wide, fun x _ => rfl, fun x y gx gy _ _ atX atY => ?_⟩
  rw [quadratic_gradients high wide atX, quadratic_gradients high wide atY, ← Matrix.mulVec_add]
  congr 1
  abel

theorem Objective.quadratic_isQuadratic {center : Coords ℝ} (high : A.height = center.size)
    (wide : A.width = center.size) : (Objective.quadratic A center).IsQuadratic A center where
  high := high
  wide := wide
  conforming := quadratic_conforming high wide rfl
  expands := quadratic_expands A center center.size
  value x v fits made := by
    rw [quadratic_values high wide fits made]
    ring
  gradient _ _ _ made := quadratic_gradients high wide made
  hessian _ _ := rfl

theorem Constraints.linear_affine {b : Coords ℝ} (high : A.height = b.size) (wide : A.width = n) :
    (Constraints.linear A b).Affine A n := by
  refine ⟨fun x _ => rfl, fun x y vx vy _ _ atX atY => ?_, fun x l Z fits _ made => ?_⟩
  · change vy.vec b.size = vx.vec b.size + (A.mat b.size n).mulVec (y.vec n - x.vec n)
    rw [linear_values high wide atX, linear_values high wide atY, Matrix.mulVec_sub]
    abel
  · cases made
    rw [fits, Table.mat_zeros]

/-- The product with fixed coefficients. -/
noncomputable def Objective.linear (c : Coords ℝ) : Objective ℝ :=
  .ofHessian c.dot (fun _ => .ok c) fun _ => .ok (.zeros c.size c.size)

theorem Objective.linear_conforming (c : Coords ℝ) : (Objective.linear c).Conforming c.size :=
  ⟨fun _ fits => ⟨_, if_pos fits.symm⟩, fun _ _ => ⟨c, rfl, rfl⟩⟩

theorem Objective.linear_expands (c : Coords ℝ) : (Objective.linear c).Expands c.size := by
  intro x v g _ atValue atGradient
  exact Outcome.bind_eq_ok.mpr ⟨v, atValue, Outcome.bind_eq_ok.mpr ⟨g, atGradient, rfl⟩⟩

theorem Objective.linear_constantHessian (c : Coords ℝ) :
    (Objective.linear c).ConstantHessian (.zeros c.size c.size) c.size := by
  refine ⟨Table.height_zeros _ _, rfl, fun _ _ => rfl, fun x y gx gy _ _ atX atY => ?_⟩
  cases atX
  cases atY
  rw [Table.mat_zeros, Matrix.zero_mulVec, add_zero]

end Families

/-- The square of the sum and that of the second coordinate. -/
noncomputable def Table.slanted : Table ℝ :=
  .ofFn 2 2 fun i j => if i = 1 ∧ j = 1 then 2.0 else 1

theorem Table.height_slanted : slanted.height = 2 :=
  height_ofFn 2 2 _

theorem Table.mat_slanted : slanted.mat 2 2 = !![1, 1; 1, 2] := by
  rw [slanted, mat_ofFn]
  ext i j
  fin_cases i <;> fin_cases j <;> norm_num

/-- The form is a sum of squares. -/
theorem Table.slanted_squares (v : Fin 2 → ℝ) :
    v ⬝ᵥ (slanted.mat 2 2).mulVec v = (v 0 + v 1) ^ 2 + v 1 ^ 2 := by
  rw [mat_slanted]
  simp [dotProduct, Matrix.mulVec, Fin.sum_univ_two]
  ring

theorem Table.posDef_slanted : (slanted.mat 2 2).PosDef := by
  refine Matrix.PosDef.of_dotProduct_mulVec_pos (Matrix.IsHermitian.ext fun i j => ?_) fun v nonzero => ?_
  · rw [mat_slanted]
    fin_cases i <;> fin_cases j <;> rfl
  · rw [star_trivial, slanted_squares]
    by_contra! flat
    have second : v 1 = 0 := by nlinarith [sq_nonneg (v 0 + v 1)]
    have first : v 0 = 0 := by nlinarith [sq_nonneg (v 0 + v 1)]
    exact nonzero (funext (Fin.forall_fin_two.mpr ⟨first, second⟩))

namespace Objective

/-- Half the form, at the displacement from the origin. -/
noncomputable def slanted : Objective ℝ :=
  .quadratic .slanted (.zeros 2)

theorem slanted_conforming : slanted.Conforming 2 :=
  quadratic_conforming Table.height_slanted rfl (Coords.size_constant 2 0)

theorem slanted_expands : slanted.Expands 2 :=
  quadratic_expands .slanted (.zeros 2) 2

theorem slanted_symmetricHessians : slanted.SymmetricHessians 2 :=
  (quadratic_constantHessian (.zeros 2) Table.height_slanted rfl).symmetricHessians Table.posDef_slanted.isHermitian

theorem slanted_smooth : slanted.Smooth 4 2 := by
  refine quadratic_smooth Table.height_slanted rfl Table.posDef_slanted.isHermitian fun d => ?_
  rw [Table.slanted_squares, dotProduct, Fin.sum_univ_two]
  nlinarith [sq_nonneg (d 0 - d 1), sq_nonneg (d 0)]

theorem slanted_gradient_ones {g : Coords ℝ} (atGradient : slanted.gradient (.constant 2 1) = .ok g) :
    g.vec 2 = ![2, 3] := by
  rw [quadratic_gradients Table.height_slanted rfl atGradient, Table.mat_slanted, Coords.vec_constant,
    Coords.vec_zeros, sub_zero]
  funext i
  fin_cases i <;> norm_num [Matrix.mulVec, dotProduct, Fin.sum_univ_two]

end Objective

end Downhill
