import Mathlib
import Downhill.Proofs.Affine
import Downhill.Proofs.Subspace
import Downhill.Proofs.Terms

namespace Downhill

/-- Above each of its tangents by half the form of one symmetric matrix at the displacement. -/
structure Objective.Paraboloid (f : Objective ℝ) (H : Table ℝ) (n : Nat) : Prop where
  high : H.height = n
  wide : H.width = n
  symmetric : (H.mat n n).IsSymm
  rise : ∀ x y fx fy g, x.size = n → y.size = n → f.value x = .ok fx → f.value y = .ok fy →
    f.gradient x = .ok g → fy = fx + g.vec n ⬝ᵥ (y.vec n - x.vec n) +
      0.5 * ((y.vec n - x.vec n) ⬝ᵥ (H.mat n n).mulVec (y.vec n - x.vec n))

/-- The squared gradient is at least the height above `low`, times twice the constant. -/
def Objective.Dominated (f : Objective ℝ) (mu low : ℝ) (n : Nat) : Prop :=
  ∀ x v g, x.size = n → f.value x = .ok v → f.gradient x = .ok g → 2.0 * mu * (v - low) ≤ g.norm ^ 2

/-- No value is below. -/
def Objective.Above (f : Objective ℝ) (low : ℝ) (n : Nat) : Prop :=
  ∀ x v, x.size = n → f.value x = .ok v → low ≤ v

theorem Objective.quadratic_paraboloid {A : Table ℝ} {n : Nat} (center : Coords ℝ) (high : A.height = n)
    (wide : A.width = n) (symmetric : (A.mat n n).IsSymm) : (quadratic A center).Paraboloid A n := by
  refine ⟨high, wide, symmetric, fun x y fx fy g xSize ySize atX atY atGradient => ?_⟩
  rw [quadratic_rise high wide symmetric xSize ySize atX atY atGradient]
  ring

section Forms

variable {n : Nat} {M : Matrix (Fin n) (Fin n) ℝ} {mu : ℝ}

/-- Where no eigenvalue is below `mu` the form is nowhere below `mu` times the squared length. -/
theorem form_ge_of_eigenvalues (symmetric : M.IsHermitian)
    (least : ∀ m v, v ≠ 0 → M.mulVec v = m • v → mu ≤ m) (d : Fin n → ℝ) :
    mu * (d ⬝ᵥ d) ≤ d ⬝ᵥ M.mulVec d := by
  have shifted : (M - mu • 1).IsHermitian := symmetric.sub (Matrix.isHermitian_one.smul (IsSelfAdjoint.all mu))
  have definite : (M - mu • 1).PosSemidef := by
    refine shifted.posSemidef_iff_eigenvalues_nonneg.mpr fun j => ?_
    have eigen := shifted.mulVec_eigenvectorBasis j
    rw [Matrix.sub_mulVec, Matrix.smul_mulVec, Matrix.one_mulVec, sub_eq_iff_eq_add, ← add_smul] at eigen
    have nonzero : ⇑(shifted.eigenvectorBasis j) ≠ (0 : Fin n → ℝ) := fun zero =>
      shifted.eigenvectorBasis.orthonormal.ne_zero j (WithLp.ofLp_injective 2 zero)
    exact (le_add_iff_nonneg_left mu).mp (least _ _ nonzero eigen)
  have nonneg := definite.dotProduct_mulVec_nonneg d
  rw [star_trivial, Matrix.sub_mulVec, Matrix.smul_mulVec, Matrix.one_mulVec, dotProduct_sub, dotProduct_smul,
    smul_eq_mul] at nonneg
  linarith

/-- What is so multiplied is at least as long as the form says. -/
theorem mul_form_le (below : ∀ d, mu * (d ⬝ᵥ d) ≤ d ⬝ᵥ M.mulVec d) (nonneg : ∀ d, 0 ≤ d ⬝ᵥ M.mulVec d)
    (d : Fin n → ℝ) : mu * (d ⬝ᵥ M.mulVec d) ≤ M.mulVec d ⬝ᵥ M.mulVec d := by
  have square : ∀ u : Fin n → ℝ, 0 ≤ u ⬝ᵥ u := fun u => Finset.sum_nonneg fun i _ => mul_self_nonneg (u i)
  rcases le_or_gt mu 0 with small | positive
  · exact (mul_nonpos_of_nonpos_of_nonneg small (nonneg d)).trans (square _)
  -- The square of what is left of the product once a multiple of the vector is taken away.
  have rest := square (M.mulVec d - mu • d)
  rw [sub_dotProduct, dotProduct_sub, dotProduct_sub, smul_dotProduct, dotProduct_smul, dotProduct_smul,
    smul_dotProduct, smul_eq_mul, smul_eq_mul, smul_eq_mul, smul_eq_mul, dotProduct_comm (M.mulVec d) d] at rest
  have bound := mul_le_mul_of_nonneg_left (below d) positive.le
  linarith

end Forms

namespace Objective.Paraboloid

variable {f : Objective ℝ} {H : Table ℝ} {n : Nat} {x y gx gy z g : Coords ℝ} {v : ℝ}
  (paraboloid : f.Paraboloid H n) (conforming : f.Conforming n)

include paraboloid conforming

/-- Gradients differ by the product with the displacement. -/
theorem gradient_eq (xSize : x.size = n) (ySize : y.size = n) (atX : f.gradient x = .ok gx)
    (atY : f.gradient y = .ok gy) :
    gy.vec n = gx.vec n + (H.mat n n).mulVec (y.vec n - x.vec n) := by
  set M := H.mat n n
  set d := y.vec n - x.vec n
  set e := gx.vec n + M.mulVec d - gy.vec n
  -- Beyond the second point, along what the gradients might still differ by.
  obtain ⟨z, zSize, zVec⟩ : ∃ z : Coords ℝ, z.size = n ∧ z.vec n = y.vec n + e :=
    ⟨.ofFn (y.vec n + e), Coords.size_ofFn _, Coords.vec_ofFn _⟩
  obtain ⟨fx, hereX⟩ := conforming.value x xSize
  obtain ⟨fy, hereY⟩ := conforming.value y ySize
  obtain ⟨fz, hereZ⟩ := conforming.value z zSize
  have near := paraboloid.rise x y fx fy gx xSize ySize hereX hereY atX
  have far := paraboloid.rise x z fx fz gx xSize zSize hereX hereZ atX
  have beyond := paraboloid.rise y z fy fz gy ySize zSize hereY hereZ atY
  have whole : y.vec n + e - x.vec n = d + e := add_sub_right_comm _ _ _
  have swapped : e ⬝ᵥ M.mulVec d = d ⬝ᵥ M.mulVec e := by
    rw [Matrix.dotProduct_mulVec d, ← Matrix.mulVec_transpose, paraboloid.symmetric, dotProduct_comm]
  rw [zVec, whole, Matrix.mulVec_add, dotProduct_add, add_dotProduct, dotProduct_add, dotProduct_add] at far
  rw [zVec, add_sub_cancel_left] at beyond
  have zero : e ⬝ᵥ e = 0 := by
    calc e ⬝ᵥ e = gx.vec n ⬝ᵥ e + d ⬝ᵥ M.mulVec e - gy.vec n ⬝ᵥ e := by
          rw [← swapped, dotProduct_comm e (M.mulVec d), ← add_dotProduct, ← sub_dotProduct]
      _ = 0 := by linarith
  exact (sub_eq_zero.mp (dotProduct_self_eq_zero.mp zero)).symm

/-- Where no point of a segment is lower than its start the gradient there does not lead down along it. -/
theorem slope_nonneg (fits : z.size = n) (here : f.value z = .ok v) (atGradient : f.gradient z = .ok g)
    {e : Fin n → ℝ} (least : ∀ s : ℝ, 0 < s → s ≤ 1 → ∀ y w, y.size = n → y.vec n = z.vec n + s • e →
      f.value y = .ok w → v ≤ w) : 0 ≤ g.vec n ⬝ᵥ e := by
  -- How the value bends counts for less the shorter the part of the way is.
  have parts : ∀ s, 0 < s → s ≤ 1 → -(g.vec n ⬝ᵥ e) ≤ s * (0.5 * (e ⬝ᵥ (H.mat n n).mulVec e)) := by
    intro s positive within
    obtain ⟨y, ySize, way⟩ : ∃ y : Coords ℝ, y.size = n ∧ y.vec n = z.vec n + s • e :=
      ⟨.ofFn (z.vec n + s • e), Coords.size_ofFn _, Coords.vec_ofFn _⟩
    obtain ⟨w, there⟩ := conforming.value y ySize
    have above := least s positive within y w ySize way there
    rw [paraboloid.rise z y v w g fits ySize here there atGradient, way, add_sub_cancel_left, Matrix.mulVec_smul,
      dotProduct_smul, smul_dotProduct, dotProduct_smul, smul_eq_mul, smul_eq_mul, smul_eq_mul] at above
    refine le_of_mul_le_mul_left ?_ positive
    linarith
  exact neg_nonpos.mp (ProximalTerm.nonpos_of_le_shares parts)

variable (definite : (H.mat n n).PosSemidef)

include definite

/-- The minimizers are the points without gradient. -/
theorem least_iff (fits : z.size = n) (here : f.value z = .ok v) (atGradient : f.gradient z = .ok g) :
    f.Above v n ↔ g.vec n = 0 := by
  constructor
  · intro least
    have back := paraboloid.slope_nonneg conforming fits here atGradient (e := -g.vec n)
      fun _ _ _ y w ySize _ there => least y w ySize there
    rw [dotProduct_neg, neg_nonneg] at back
    exact dotProduct_self_eq_zero.mp (back.antisymm (Finset.sum_nonneg fun i _ => mul_self_nonneg _))
  · intro flat y w ySize there
    have nonneg := definite.dotProduct_mulVec_nonneg (y.vec n - z.vec n)
    rw [star_trivial] at nonneg
    rw [paraboloid.rise z y v w g fits ySize here there atGradient, flat, zero_dotProduct, add_zero]
    linarith

/-- A step that solves the system of the matrix lowers the value by half the slope, and leaves no gradient. -/
theorem newton_step {w : ℝ} {d : Coords ℝ} (xSize : x.size = n) (ySize : y.size = n) (here : f.value x = .ok v)
    (there : f.value y = .ok w) (atX : f.gradient x = .ok gx) (atY : f.gradient y = .ok gy)
    (solved : (H.mat n n).mulVec (d.vec n) = -gx.vec n) (way : y.vec n - x.vec n = d.vec n) :
    gx.vec n ⬝ᵥ d.vec n ≤ 0 ∧ w = v + gx.vec n ⬝ᵥ d.vec n / 2 ∧ gy.vec n = 0 := by
  have bend : d.vec n ⬝ᵥ (H.mat n n).mulVec (d.vec n) = -(gx.vec n ⬝ᵥ d.vec n) := by
    rw [solved, dotProduct_neg, dotProduct_comm]
  have nonneg := definite.dotProduct_mulVec_nonneg (d.vec n)
  rw [star_trivial, bend] at nonneg
  refine ⟨neg_nonneg.mp nonneg, ?_, ?_⟩
  · rw [paraboloid.rise x y v w gx xSize ySize here there atX, way, bend]
    ring
  · rw [paraboloid.gradient_eq conforming xSize ySize atX atY, way, solved, add_neg_cancel]

/-- The gradient is as steep as the least eigenvalue demands, above the minimum. -/
theorem dominated {mu low : ℝ} (least : ∀ m v, v ≠ 0 → (H.mat n n).mulVec v = m • v → mu ≤ m)
    (attained : ∃ z, z.size = n ∧ f.value z = .ok low) (above : f.Above low n) : f.Dominated mu low n := by
  intro x v g fits here atGradient
  obtain ⟨z, zSize, there⟩ := attained
  obtain ⟨gz, atMinimum, _⟩ := conforming.gradient z zSize
  have flat := (paraboloid.least_iff conforming definite zSize there atMinimum).mp above
  have rise := paraboloid.rise z x low v gz zSize fits there here atMinimum
  have slope := paraboloid.gradient_eq conforming zSize fits atMinimum atGradient
  rw [flat, zero_dotProduct, add_zero] at rise
  rw [flat, zero_add] at slope
  have bound := mul_form_le (form_ge_of_eigenvalues definite.isHermitian least)
    (fun d => by simpa using definite.dotProduct_mulVec_nonneg d) (x.vec n - z.vec n)
  rw [Coords.norm_eq (conforming.size_gradient fits atGradient).le, Real.sq_sqrt, slope, rise]
  · linarith
  · exact Finset.sum_nonneg fun i _ => mul_self_nonneg _

end Objective.Paraboloid

section

variable {f : Objective ℝ} {H R : Table ℝ} {space : Subspace ℝ} {n : Nat}

theorem Objective.Paraboloid.restrict (paraboloid : f.Paraboloid H n) (wide : space.basis.width = n)
    (dimension : space.origin.size = n) (high : R.height = space.dim) (across : R.width = space.dim)
    (form : R.mat space.dim space.dim =
      space.basis.mat space.dim n * H.mat n n * (space.basis.mat space.dim n).transpose) :
    (f.restrict space).Paraboloid R space.dim := by
  set P := space.basis.mat space.dim n
  refine ⟨high, across, ?_, fun d e fd fe reduced dSize eSize atD atE atGradient => ?_⟩
  · rw [form, Matrix.IsSymm, Matrix.transpose_mul, Matrix.transpose_mul, Matrix.transpose_transpose,
      paraboloid.symmetric, Matrix.mul_assoc]
  · obtain ⟨x, lifted, xSize⟩ := space.lift_ok wide dimension dSize
    obtain ⟨y, lifted', ySize⟩ := space.lift_ok wide dimension eSize
    simp only [Objective.restrict, lifted, lifted', Outcome.bind_eq_ok, Except.ok.injEq,
      exists_eq_left'] at atD atE atGradient
    obtain ⟨g, full, applied⟩ := atGradient
    have way : y.vec n - x.vec n = P.transpose.mulVec (e.vec space.dim - d.vec space.dim) := by
      rw [space.vec_lift wide lifted, space.vec_lift wide lifted', Matrix.mulVec_transpose, Matrix.sub_vecMul]
      abel
    have shortened : reduced.vec space.dim = P.mulVec (g.vec n) := Table.vec_apply applied rfl wide
    rw [paraboloid.rise x y fd fe g xSize ySize atD atE full, way, shortened, form]
    set w := e.vec space.dim - d.vec space.dim
    rw [Matrix.dotProduct_transpose_mulVec, dotProduct_comm w, Table.form_congruent]

namespace Subspace

/-- No point of the subspace has a value below. -/
def Least (space : Subspace ℝ) (f : Objective ℝ) (y : Coords ℝ) : Prop :=
  ∀ e z v w, e.size = space.dim → space.lift e = .ok z → f.value y = .ok v → f.value z = .ok w → v ≤ w

/-- The gradient has no part in the subspace. -/
def Flat (space : Subspace ℝ) (f : Objective ℝ) (y : Coords ℝ) : Prop :=
  ∃ g, f.gradient y = .ok g ∧ space.basis.apply g = .ok (.zeros space.dim)

end Subspace

/-- Between the points of a subspace the minimizers are those whose gradient has no part there. -/
theorem Objective.Paraboloid.least_iff_flat (paraboloid : f.Paraboloid H n) (conforming : f.Conforming n)
    (definite : (H.mat n n).PosSemidef) (wide : space.basis.width = n) (dimension : space.origin.size = n)
    {d y : Coords ℝ} (size : d.size = space.dim) (lifted : space.lift d = .ok y) :
    space.Least f y ↔ space.Flat f y := by
  have restricted : (f.restrict space).Conforming space.dim := restrict_conforming conforming wide dimension
  obtain ⟨v, atValue⟩ := restricted.value d size
  obtain ⟨r, atGradient, rSize⟩ := restricted.gradient d size
  have shortened : (space.basis.mat space.dim n * H.mat n n *
      (space.basis.mat space.dim n).transpose).PosSemidef := by
    simpa using definite.mul_mul_conjTranspose_same (space.basis.mat space.dim n)
  have form := paraboloid.restrict wide dimension (R := .ofFn space.dim space.dim fun i j =>
    (space.basis.mat space.dim n * H.mat n n * (space.basis.mat space.dim n).transpose) i j)
    (Table.height_ofFn _ _ _) rfl (Table.mat_ofFn _)
  have least := form.least_iff restricted (by rwa [Table.mat_ofFn]) size atValue atGradient
  obtain ⟨x, same, here⟩ := Outcome.bind_eq_ok.mp atValue
  obtain rfl := Except.ok.inj (lifted.symm.trans same)
  obtain ⟨x, same, g, full, applied⟩ : ∃ x, space.lift d = .ok x ∧ ∃ g, f.gradient x = .ok g ∧
      space.basis.apply g = .ok r := by simpa only [Objective.restrict, Outcome.bind_eq_ok] using atGradient
  obtain rfl := Except.ok.inj (lifted.symm.trans same)
  have reached : space.Least f y ↔ (f.restrict space).Above v space.dim := by
    constructor
    · intro all e w eSize there
      obtain ⟨z, lifted', there⟩ := Outcome.bind_eq_ok.mp there
      exact all e z v w eSize lifted' here there
    · intro above e z u w eSize lifted' here' there
      obtain rfl := Except.ok.inj (here.symm.trans here')
      exact above e w eSize (Outcome.bind_eq_ok.mpr ⟨z, lifted', there⟩)
  have across : space.Flat f y ↔ r.vec space.dim = 0 := by
    constructor
    · rintro ⟨g', full', flat⟩
      obtain rfl := Except.ok.inj (full.symm.trans full')
      rw [Except.ok.inj (applied.symm.trans flat), Coords.vec_zeros]
    · intro flat
      have zero : r = .zeros space.dim :=
        Coords.eq_of_vec rSize (Coords.size_constant _ _) (by rw [flat, Coords.vec_zeros])
      exact ⟨g, full, zero ▸ applied⟩
  rw [reached, least, across]

end

end Downhill
