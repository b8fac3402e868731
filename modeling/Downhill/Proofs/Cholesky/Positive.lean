import Mathlib
import Downhill.Proofs.Cholesky.Solution

namespace Downhill.Cholesky

variable {n : Nat}

section

variable {α : Type} [Scalar α] {A B : Square α n}

/-- A column is made from entries on and below the diagonal. -/
theorem step_congr (same : ∀ i j, j ≤ i → B i j = A i j) (L : Square α n) (j : Fin n) :
    step B L j = step A L j := by
  have column : ∀ i, j < i → (B i j - overlap L i j) / Scalar.sqrt (A j j - overlap L j j) =
      (A i j - overlap L i j) / Scalar.sqrt (A j j - overlap L j j) := fun i below => by rw [same i j below.le]
  simp +contextual only [step, same j j le_rfl, column]

/-- Squares with one lower triangle have one factor, in any arithmetic. -/
theorem factor_congr (same : ∀ i j, j ≤ i → B i j = A i j) : factor B = factor A := by
  have steps : step B = step A := funext fun L => funext (step_congr same L)
  rw [factor, factor, steps]

end

variable {A : Square ℝ n} {C : Cholesky ℝ n}

/-- A triangle with all its columns is regular. -/
theorem Factored.det_ne_zero (kept : Factored A n C.lower) : C.lower.matrix.det ≠ 0 := by
  have triangle : C.lower.matrix.IsLowerTriangular := fun i j front => kept.triangle i j front
  rw [Matrix.det_of_isLowerTriangular _ triangle]
  exact Finset.prod_ne_zero_iff.mpr fun i _ => (kept.pivots i i.isLt).ne'

/-- The form of a factored square is the length of what the transposed triangle makes of a vector, squared. -/
theorem Factored.form_pos (kept : Factored A n C.lower) {x : Fin n → ℝ} (nonzero : x ≠ 0) :
    0 < x ⬝ᵥ A.mirrored.mulVec x := by
  have image : C.lower.matrix.transpose.mulVec x ≠ 0 := by
    have regular : C.lower.matrix.transpose.det ≠ 0 := by
      rw [Matrix.det_transpose]
      exact kept.det_ne_zero
    exact fun zero => nonzero (Matrix.eq_zero_of_mulVec_eq_zero regular zero)
  have square : x ⬝ᵥ A.mirrored.mulVec x =
      C.lower.matrix.transpose.mulVec x ⬝ᵥ C.lower.matrix.transpose.mulVec x := by
    rw [← kept.product_lower, ← Matrix.mulVec_mulVec, Matrix.dotProduct_mulVec, ← Matrix.mulVec_transpose]
  rw [square]
  exact lt_of_le_of_ne (Finset.sum_nonneg fun i _ => mul_self_nonneg _)
    fun zero => image (dotProduct_self_eq_zero.mp zero.symm)

/-- A square is factored where its form is positive. -/
theorem exists_factor_iff (A : Square ℝ n) :
    (∃ C, factor A = some C) ↔ ∀ x, x ≠ 0 → 0 < x ⬝ᵥ A.mirrored.mulVec x := by
  constructor
  · rintro ⟨C, made⟩ x nonzero
    exact (factored_of_factor made).form_pos nonzero
  · intro positive
    rcases factor_cases A with ⟨C, made, _⟩ | ⟨_, x, nonzero, low⟩
    · exact ⟨C, made⟩
    · exact absurd (positive x nonzero) (not_lt.mpr low)

theorem Factored.mirrored_mulVec_injective (kept : Factored A n C.lower) :
    Function.Injective A.mirrored.mulVec := by
  intro x y same
  by_contra apart
  have level : A.mirrored.mulVec (x - y) = 0 := by rw [Matrix.mulVec_sub, sub_eq_zero.mpr same]
  have positive := kept.form_pos (sub_ne_zero.mpr apart)
  rw [level, dotProduct_zero] at positive
  exact lt_irrefl _ positive

/-- A square has a factor exactly where the form of the symmetric matrix with its lower triangle is positive: a
lower triangle with a positive diagonal that multiplies with its transpose to that matrix, and solves every
right side by the one vector that the matrix takes there. -/
theorem factor_exact (A : Square ℝ n) :
    ((∃ C, factor A = some C) ↔ ∀ x, x ≠ 0 → 0 < x ⬝ᵥ A.mirrored.mulVec x) ∧
    (∀ C, factor A = some C →
      (∀ i j, i < j → C.lower i j = 0) ∧ (∀ i, 0 < C.lower i i) ∧
      C.lower.matrix * C.lower.matrix.transpose = A.mirrored ∧
      ∀ b : Coords ℝ, b.size = n → ∃ x, C.solve b = .ok x ∧ x.size = n ∧
        ∀ y, A.mirrored.mulVec y = b.vec n ↔ y = x.vec n) ∧
    ∀ B : Square ℝ n, (∀ i j, j ≤ i → B i j = A i j) → factor B = factor A := by
  refine ⟨exists_factor_iff A, fun C made => ?_, fun B same => factor_congr same⟩
  have kept := factored_of_factor made
  refine ⟨kept.triangle, fun i => kept.pivots i i.isLt, kept.product_lower, fun b size => ?_⟩
  obtain ⟨x, solved, xSize, solution⟩ := kept.solve_ok size
  refine ⟨x, solved, xSize, fun y => ⟨fun other => ?_, fun same => same ▸ solution⟩⟩
  exact kept.mirrored_mulVec_injective (other.trans solution.symm)

end Downhill.Cholesky
