import Mathlib
import Downhill.Families.Constraints
import Downhill.Families.Objectives
import Downhill.Proofs.Matrices
import Downhill.Proofs.Outcome

namespace Downhill

section Shapes

variable {α : Type}

/-- At points with `n` coordinates there is a value, and a gradient of that dimension. -/
structure Objective.Conforming (f : Objective α) (n : Nat) : Prop where
  value : ∀ x, x.size = n → ∃ v, f.value x = .ok v
  gradient : ∀ x, x.size = n → ∃ g, f.gradient x = .ok g ∧ g.size = n

/-- What is computed at once is the value and the gradient. -/
def Objective.Expands (f : Objective α) (n : Nat) : Prop :=
  ∀ x v g, x.size = n → f.value x = .ok v → f.gradient x = .ok g → f.expand x = .ok (v, g)

/-- What is computed at once has a gradient of the dimension of the point. -/
def Objective.Expandable (f : Objective α) (n : Nat) : Prop :=
  ∀ x, x.size = n → ∃ expansion, f.expand x = .ok expansion ∧ expansion.2.size = n

/-- At points with `n` coordinates there is all that a method may ask for: a value and a gradient, alone or at once,
and a Hessian, in the dimension of the points. Nothing is said of what the numbers are. -/
structure Objective.Complete (f : Objective α) (n : Nat) : Prop extends Objective.Conforming f n where
  expand : f.Expandable n
  hessian : ∀ x, x.size = n → ∃ H, f.hessian x = .ok H ∧ H.height = n ∧ H.width = n

/-- At points with `n` coordinates there are as many values and gradients as constraints, and the
gradients and Hessians have the dimension of the points. -/
structure Constraints.Conforming (c : Constraints α) (n : Nat) : Prop where
  values : ∀ x, x.size = n → ∃ v, c.values x = .ok v ∧ v.size = c.count
  jacobian : ∀ x, x.size = n → ∃ J, c.jacobian x = .ok J ∧ J.height = c.count ∧ J.width = n
  curvature : ∀ x l, x.size = n → l.size = c.count →
    ∃ H, c.curvature x l = .ok H ∧ H.height = n ∧ H.width = n

/-- A complete objective, and a proximal map that keeps the number of coordinates. -/
structure Composite.Complete (p : Composite α) (n : Nat) : Prop where
  smooth : p.smooth.Complete n
  prox : ∀ u t, u.size = n → ∃ q, p.prox u t = .ok q ∧ q.size = n

/-- A complete objective, under conforming constraints. -/
structure Constrained.Complete (p : Constrained α) (n : Nat) : Prop where
  objective : p.objective.Complete n
  constraints : p.constraints.Conforming n

section

variable {f : Objective α} {c : Constraints α} {n : Nat} {x : Coords α}

theorem Objective.Conforming.size_gradient (conforming : f.Conforming n) (fits : x.size = n)
    {g : Coords α} (found : f.gradient x = .ok g) : g.size = n := by
  obtain ⟨other, same, size⟩ := conforming.gradient x fits
  exact Except.ok.inj (same.symm.trans found) ▸ size

/-- Value and gradient are there to be computed at once. -/
theorem Objective.Conforming.expand_ok (conforming : f.Conforming n) (expands : f.Expands n)
    (fits : x.size = n) :
    ∃ v g, f.value x = .ok v ∧ f.gradient x = .ok g ∧ g.size = n ∧ f.expand x = .ok (v, g) := by
  obtain ⟨v, atValue⟩ := conforming.value x fits
  obtain ⟨g, atGradient, size⟩ := conforming.gradient x fits
  exact ⟨v, g, atValue, atGradient, size, expands x v g fits atValue atGradient⟩

theorem Objective.Conforming.expandable (conforming : f.Conforming n) (expands : f.Expands n) : f.Expandable n :=
  fun _ fits =>
    let ⟨v, g, _, _, size, expanded⟩ := conforming.expand_ok expands fits
    ⟨(v, g), expanded, size⟩

/-- And only they are. -/
theorem Objective.Conforming.of_expand (conforming : f.Conforming n) (expands : f.Expands n)
    (fits : x.size = n) {v : α} {g : Coords α} (expanded : f.expand x = .ok (v, g)) :
    f.value x = .ok v ∧ f.gradient x = .ok g ∧ g.size = n := by
  obtain ⟨w, h, atValue, atGradient, size, same⟩ := conforming.expand_ok expands fits
  obtain ⟨rfl, rfl⟩ := Prod.mk.inj (Except.ok.inj (same.symm.trans expanded))
  exact ⟨atValue, atGradient, size⟩

theorem Objective.gradientNorm_eq_ok [Scalar α] {v : α} :
    f.gradientNorm x = .ok v ↔ ∃ g, f.gradient x = .ok g ∧ g.norm = v := by
  rw [gradientNorm, Outcome.bind_eq_ok]
  exact exists_congr fun _ => and_congr_right fun _ => Outcome.pure_eq_ok

theorem Objective.Conforming.gradientNorm_ok [Scalar α] (conforming : f.Conforming n) (fits : x.size = n) :
    ∃ v, f.gradientNorm x = .ok v := by
  obtain ⟨g, atGradient, _⟩ := conforming.gradient x fits
  exact ⟨g.norm, gradientNorm_eq_ok.mpr ⟨g, atGradient, rfl⟩⟩

theorem Constraints.Conforming.size_values (conforming : c.Conforming n) (fits : x.size = n)
    {v : Coords α} (found : c.values x = .ok v) : v.size = c.count := by
  obtain ⟨other, same, size⟩ := conforming.values x fits
  exact Except.ok.inj (same.symm.trans found) ▸ size

theorem Constraints.Conforming.shape_jacobian (conforming : c.Conforming n) (fits : x.size = n)
    {J : Table α} (found : c.jacobian x = .ok J) : J.height = c.count ∧ J.width = n := by
  obtain ⟨other, same, shape⟩ := conforming.jacobian x fits
  exact Except.ok.inj (same.symm.trans found) ▸ shape

end

variable [Scalar α] {A : Table α} {n : Nat}

theorem Objective.quadratic_conforming {center : Coords α} (high : A.height = n) (wide : A.width = n)
    (size : center.size = n) : (Objective.quadratic A center).Conforming n := by
  have displaced : ∀ x : Coords α, x.size = n → ∃ r g, x.sub center = .ok r ∧ A.apply r = .ok g ∧
      r.size = n ∧ g.size = n := by
    intro x fits
    obtain ⟨r, atDisplacement, rSize⟩ := Coords.sub_ok fits size
    obtain ⟨g, atProduct, gSize⟩ := Table.apply_ok (wide.trans rSize.symm)
    exact ⟨r, g, atDisplacement, atProduct, rSize, gSize.trans high⟩
  constructor
  · intro x fits
    obtain ⟨r, g, atDisplacement, atProduct, rSize, gSize⟩ := displaced x fits
    have product : r.dot g = .ok (r.pairing g) := if_pos (rSize.trans gSize.symm)
    exact ⟨_, by simp only [quadratic, atDisplacement, atProduct, product, bind, Except.bind]; rfl⟩
  · intro x fits
    obtain ⟨r, g, atDisplacement, atProduct, _, gSize⟩ := displaced x fits
    exact ⟨g, by simp only [quadratic, atDisplacement, bind, Except.bind, atProduct], gSize⟩

theorem Objective.quadratic_expands (A : Table α) (center : Coords α) (n : Nat) :
    (Objective.quadratic A center).Expands n := by
  intro x v g _ atValue atGradient
  simp only [quadratic, Outcome.bind_eq_ok, Outcome.pure_eq_ok] at atValue atGradient ⊢
  obtain ⟨r, atDisplacement, h, atProduct, product, atPairing, rfl⟩ := atValue
  obtain ⟨r', sameDisplacement, sameProduct⟩ := atGradient
  obtain rfl := Except.ok.inj (atDisplacement.symm.trans sameDisplacement)
  obtain rfl := Except.ok.inj (atProduct.symm.trans sameProduct)
  exact ⟨r, atDisplacement, h, atProduct, product, atPairing, rfl⟩

theorem Objective.quadratic_complete {center : Coords α} (high : A.height = n) (wide : A.width = n)
    (size : center.size = n) : (Objective.quadratic A center).Complete n where
  toConforming := quadratic_conforming high wide size
  expand := (quadratic_conforming high wide size).expandable (quadratic_expands A center n)
  hessian _ _ := ⟨A, rfl, high, wide⟩

theorem Constraints.linear_conforming {b : Coords α} (high : A.height = b.size) (wide : A.width = n) :
    (Constraints.linear A b).Conforming n := by
  refine ⟨fun x fits => ?_, fun x _ => ⟨A, rfl, high, wide⟩, fun x l fits _ => ?_⟩
  · obtain ⟨y, atProduct, ySize⟩ := Table.apply_ok (wide.trans fits.symm)
    obtain ⟨v, atDifference, vSize⟩ := Coords.sub_ok (ySize.trans high) rfl
    exact ⟨v, by simp only [linear, atProduct, bind, Except.bind, atDifference], vSize⟩
  · exact ⟨_, rfl, (Table.height_ofFn _ _ _).trans fits, fits⟩

end Shapes

theorem Constraints.feasible_eq_ok {c : Constraints ℝ} {x : Coords ℝ} :
    c.feasible x = .ok true ↔ ∃ values, c.values x = .ok values ∧ ∀ v ∈ values.toList, v ≤ 0 := by
  simp [Constraints.feasible]

/-- Nowhere below a tangent. -/
def Objective.Convex (f : Objective ℝ) (n : Nat) : Prop :=
  ∀ x y fx fy g, x.size = n → y.size = n → f.value x = .ok fx → f.value y = .ok fy →
    f.gradient x = .ok g → fx + g.vec n ⬝ᵥ (y.vec n - x.vec n) ≤ fy

/-- Above a tangent by no more than the squared distance times half the constant. -/
def Objective.Smooth (f : Objective ℝ) (L : ℝ) (n : Nat) : Prop :=
  ∀ x y fx fy g, x.size = n → y.size = n → f.value x = .ok fx → f.value y = .ok fy →
    f.gradient x = .ok g →
      fy ≤ fx + g.vec n ⬝ᵥ (y.vec n - x.vec n) + 0.5 * L * ((y.vec n - x.vec n) ⬝ᵥ (y.vec n - x.vec n))

/-- At every point with `n` coordinates there is a symmetric Hessian. -/
def Objective.SymmetricHessians (f : Objective ℝ) (n : Nat) : Prop :=
  ∀ x, x.size = n → ∃ H, f.hessian x = .ok H ∧ H.height = n ∧ H.width = n ∧ (H.mat n n).IsSymm

theorem Objective.SymmetricHessians.height_eq {f : Objective ℝ} {n : Nat} {x : Coords ℝ} {H : Table ℝ}
    (symmetric : f.SymmetricHessians n) (fits : x.size = n) (found : f.hessian x = .ok H) : H.height = n := by
  obtain ⟨other, same, high, _⟩ := symmetric x fits
  exact Except.ok.inj (same.symm.trans found) ▸ high

/-- Every value is nowhere below a tangent, the rows of the Jacobian being the gradients. -/
def Constraints.Convex (c : Constraints ℝ) (n : Nat) : Prop :=
  ∀ x y vx vy J, x.size = n → y.size = n → c.values x = .ok vx → c.values y = .ok vy →
    c.jacobian x = .ok J → ∀ i, vx.vec c.count i +
      (J.mat c.count n).mulVec (y.vec n - x.vec n) i ≤ vy.vec c.count i

/-- Towards a feasible point the constraints, weighted with the multipliers, rise by no more
than they lie below zero. -/
theorem weighted_rise_le {m n : Nat} {J : Matrix (Fin m) (Fin n) ℝ} {l v w : Fin m → ℝ} {d : Fin n → ℝ}
    (nonneg : ∀ i, 0 ≤ l i) (tangent : ∀ i, v i + J.mulVec d i ≤ w i) (feasible : ∀ i, w i ≤ 0) :
    J.vecMul l ⬝ᵥ d ≤ -(v ⬝ᵥ l) := by
  have weighted : l ⬝ᵥ (v + J.mulVec d) ≤ 0 :=
    Finset.sum_nonpos fun i _ =>
      mul_nonpos_of_nonneg_of_nonpos (nonneg i) ((tangent i).trans (feasible i))
  rw [dotProduct_add, Matrix.dotProduct_mulVec, dotProduct_comm l v] at weighted
  linarith

section Families

variable {A : Table ℝ} {n : Nat}

theorem Objective.quadratic_values {center x : Coords ℝ} {v : ℝ} (high : A.height = n)
    (wide : A.width = n) (fits : x.size = n) (made : (quadratic A center).value x = .ok v) :
    v = (x.vec n - center.vec n) ⬝ᵥ (A.mat n n).mulVec (x.vec n - center.vec n) / 2 := by
  simp only [quadratic, Outcome.bind_eq_ok, Outcome.pure_eq_ok] at made
  obtain ⟨r, atDisplacement, g, atProduct, product, atPairing, rfl⟩ := made
  obtain ⟨_, rSize⟩ := Coords.size_combine atDisplacement
  obtain ⟨_, value⟩ := Coords.dot_eq (rSize.trans fits).le atPairing
  rw [value, Table.vec_apply atProduct high wide, Coords.vec_sub atDisplacement]
  ring

theorem Objective.quadratic_gradients {center x g : Coords ℝ} (high : A.height = n)
    (wide : A.width = n) (made : (quadratic A center).gradient x = .ok g) :
    g.vec n = (A.mat n n).mulVec (x.vec n - center.vec n) := by
  simp only [quadratic, Outcome.bind_eq_ok] at made
  obtain ⟨r, atDisplacement, atProduct⟩ := made
  rw [Table.vec_apply atProduct high wide, Coords.vec_sub atDisplacement]

theorem Table.posSemidef_identity (n : Nat) : ((identity n : Table ℝ).mat n n).PosSemidef := by
  rw [mat_identity]
  exact Matrix.PosSemidef.one

/-- A quadratic is above its tangent by half its form at the displacement. -/
theorem Objective.quadratic_rise {center x y g : Coords ℝ} {fx fy : ℝ} (high : A.height = n)
    (wide : A.width = n) (symmetric : (A.mat n n).transpose = A.mat n n) (xSize : x.size = n)
    (ySize : y.size = n) (atX : (quadratic A center).value x = .ok fx)
    (atY : (quadratic A center).value y = .ok fy) (atGradient : (quadratic A center).gradient x = .ok g) :
    fy = fx + g.vec n ⬝ᵥ (y.vec n - x.vec n) +
      (y.vec n - x.vec n) ⬝ᵥ (A.mat n n).mulVec (y.vec n - x.vec n) / 2 := by
  rw [quadratic_values high wide xSize atX, quadratic_values high wide ySize atY,
    quadratic_gradients high wide atGradient]
  set M := A.mat n n
  set r := x.vec n - center.vec n
  set d := y.vec n - x.vec n
  have moved : y.vec n - center.vec n = r + d := (sub_add_sub_cancel' _ _ _).symm
  have swapped : r ⬝ᵥ M.mulVec d = M.mulVec r ⬝ᵥ d := by
    rw [Matrix.dotProduct_mulVec, ← Matrix.mulVec_transpose, symmetric]
  rw [moved, Matrix.mulVec_add, add_dotProduct, dotProduct_add, dotProduct_add, swapped,
    dotProduct_comm d (M.mulVec r)]
  ring

/-- A quadratic form without a negative direction is convex. -/
theorem Objective.quadratic_convex {center : Coords ℝ} (high : A.height = n) (wide : A.width = n)
    (definite : (A.mat n n).PosSemidef) : (Objective.quadratic A center).Convex n := by
  intro x y fx fy g xSize ySize atX atY atGradient
  have symmetric : (A.mat n n).transpose = A.mat n n := by simpa using definite.isHermitian.eq
  rw [quadratic_rise high wide symmetric xSize ySize atX atY atGradient]
  have nonneg : 0 ≤ (y.vec n - x.vec n) ⬝ᵥ (A.mat n n).mulVec (y.vec n - x.vec n) := by
    simpa using definite.dotProduct_mulVec_nonneg (y.vec n - x.vec n)
  linarith

/-- A quadratic form is as smooth as it is bounded. -/
theorem Objective.quadratic_smooth {center : Coords ℝ} {L : ℝ} (high : A.height = n) (wide : A.width = n)
    (symmetric : (A.mat n n).transpose = A.mat n n)
    (bounded : ∀ d, d ⬝ᵥ (A.mat n n).mulVec d ≤ L * (d ⬝ᵥ d)) :
    (Objective.quadratic A center).Smooth L n := by
  intro x y fx fy g xSize ySize atX atY atGradient
  rw [quadratic_rise high wide symmetric xSize ySize atX atY atGradient]
  linarith [bounded (y.vec n - x.vec n)]

theorem Constraints.linear_values {b x v : Coords ℝ} {m : Nat} (high : A.height = m) (wide : A.width = n)
    (made : (linear A b).values x = .ok v) :
    v.vec m = (A.mat m n).mulVec (x.vec n) - b.vec m := by
  simp only [linear, Outcome.bind_eq_ok] at made
  obtain ⟨product, atProduct, atDifference⟩ := made
  rw [Coords.vec_sub atDifference, Table.vec_apply atProduct high wide]

/-- Half-spaces lie on their tangents. -/
theorem Constraints.linear_convex {b : Coords ℝ} (high : A.height = b.size) (wide : A.width = n) :
    (Constraints.linear A b).Convex n := by
  intro x y vx vy J _ _ atX atY atJacobian i
  cases atJacobian
  have tangent : ∀ j : Fin b.size,
      vx.vec b.size j + (A.mat b.size n).mulVec (y.vec n - x.vec n) j ≤ vy.vec b.size j := by
    intro j
    rw [linear_values high wide atX, linear_values high wide atY, Matrix.mulVec_sub]
    simp only [Pi.sub_apply]
    linarith
  exact tangent i

end Families

/-- Half the squared length of a point with `n` coordinates. -/
noncomputable def Objective.halfSquare (n : Nat) : Objective ℝ :=
  .quadratic (.identity n) (.zeros n)

theorem Objective.halfSquare_gradients {n : Nat} {x g : Coords ℝ}
    (made : (halfSquare n).gradient x = .ok g) : g.vec n = x.vec n := by
  rw [quadratic_gradients (Table.height_identity n) (Table.width_identity n) made, Table.mat_identity,
    Matrix.one_mulVec, Coords.vec_zeros, sub_zero]

theorem Objective.halfSquare_conforming (n : Nat) : (halfSquare n).Conforming n :=
  quadratic_conforming (Table.height_identity n) (Table.width_identity n) (Coords.size_constant _ _)

theorem Objective.halfSquare_convex (n : Nat) : (halfSquare n).Convex n :=
  quadratic_convex (Table.height_identity n) (Table.width_identity n) (Table.posSemidef_identity n)

theorem Objective.halfSquare_smooth (n : Nat) : (halfSquare n).Smooth 1 n :=
  quadratic_smooth (Table.height_identity n) (Table.width_identity n) (by simp) fun d => by simp

end Downhill
