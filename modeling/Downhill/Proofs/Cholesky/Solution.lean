import Mathlib
import Downhill.LinearSystem
import Downhill.Proofs.Cholesky.Factors
import Downhill.Proofs.Elimination.Solution
import Downhill.Proofs.Outcome

namespace Downhill

theorem Square.mirrored_of_symmetric {n : Nat} {A : Square ℝ n} (symmetric : A.matrix.IsSymm) :
    A.mirrored = A.matrix := by
  ext i j
  rw [mirrored, Matrix.of_apply]
  split
  · rfl
  · exact symmetric.apply i j

namespace Cholesky

variable {n : Nat} {A : Square ℝ n} {C : Cholesky ℝ n}

theorem Factored.lower_mulVec_forward (kept : Factored A n C.lower) (b : Fin n → ℝ) :
    C.lower.matrix.mulVec (C.forward b).get = b := by
  refine Square.mulVec_settle_forward kept.triangle (fun i => (kept.pivots i i.isLt).ne') fun y i => ?_
  rw [Scalar.total_exact, Square.sum_before]
  rfl

theorem Factored.transpose_mulVec_backward (kept : Factored A n C.lower) (y : Vector ℝ n) :
    C.lower.matrix.transpose.mulVec (C.backward y).get = y.get := by
  refine Square.mulVec_settle_backward (fun i j => kept.triangle j i)
    (fun i => (kept.pivots i i.isLt).ne') fun x i => ?_
  rw [Scalar.total_exact, Square.sum_after]
  rfl

theorem Factored.product_lower (kept : Factored A n C.lower) :
    C.lower.matrix * C.lower.matrix.transpose = A.mirrored := by
  ext i j
  exact kept.product_eq_mirrored (Or.inl i.isLt)

theorem Factored.mirrored_mulVec_solution (kept : Factored A n C.lower) (b : Fin n → ℝ) :
    A.mirrored.mulVec (C.solution b).get = b := by
  rw [← kept.product_lower, ← Matrix.mulVec_mulVec, solution, kept.transpose_mulVec_backward,
    kept.lower_mulVec_forward]

/-- A right side of the size of the factor is solved. -/
theorem Factored.solve_ok (kept : Factored A n C.lower) {b : Coords ℝ} (size : b.size = n) :
    ∃ x, C.solve b = .ok x ∧ x.size = n ∧ A.mirrored.mulVec (x.vec n) = b.vec n := by
  by_cases empty : n = 0
  · subst empty
    exact ⟨b, by rw [solve, if_pos rfl], size, Subsingleton.elim _ _⟩
  · have right : (fun i : Fin n => b.get i (by omega)) = b.vec n := by
      funext i
      exact (Coords.vec_of_lt (by omega)).symm
    refine ⟨⟨(C.solution (b.vec n)).toArray⟩, ?_, by simp [Coords.size], ?_⟩
    · rw [solve, if_neg empty, dif_pos size, ← right]
    · rw [Coords.vec_toArray]
      exact kept.mirrored_mulVec_solution _

end Cholesky

/-- A positive definite table is factored, and its factor solves every right side of its size. -/
theorem Table.cholesky_of_posDef {A : Table ℝ} {n : Nat} (high : A.height = n) (wide : A.width = n)
    (definite : (A.mat n n).PosDef) : ∃ C, A.cholesky = some C ∧ ∀ b : Coords ℝ, b.size = n →
      ∃ x, C.solve b = .ok x ∧ x.size = n ∧ (A.mat n n).mulVec (x.vec n) = b.vec n := by
  subst high
  have same := A.matrix_toSquare wide
  have symmetric : (A.toSquare wide).matrix.IsSymm := by
    rw [same]
    exact (Matrix.conjTranspose_eq_transpose_of_trivial _).symm.trans definite.isHermitian.eq
  have mirrored : (A.toSquare wide).mirrored = A.mat A.height A.height :=
    (Square.mirrored_of_symmetric symmetric).trans same
  rcases Cholesky.factor_cases (A.toSquare wide) with ⟨C, made, kept⟩ | ⟨_, v, nonzero, low⟩
  · refine ⟨C, by rw [cholesky, dif_pos wide, made], fun b size => ?_⟩
    rw [← mirrored]
    exact kept.solve_ok size
  · rw [mirrored] at low
    exact absurd (definite.dotProduct_mulVec_pos nonzero) (not_lt.mpr (by simpa using low))

/-- A positive definite system is solved without falling back. -/
theorem Table.mulVec_of_cholesky {A : Table ℝ} {n : Nat} {C : Cholesky ℝ A.height} {b x : Coords ℝ}
    (high : A.height = n) (wide : A.width = n) (definite : (A.mat n n).PosDef) (factored : A.cholesky = some C)
    (size : b.size = n) (solved : C.solve b = .ok x) : (A.mat n n).mulVec (x.vec n) = b.vec n := by
  obtain ⟨C', again, solves⟩ := cholesky_of_posDef high wide definite
  obtain rfl := Option.some.inj (factored.symm.trans again)
  obtain ⟨_, same, _, product⟩ := solves b size
  rwa [← Except.ok.inj (solved.symm.trans same)] at product

theorem solveDefinite_of_cholesky {α : Type} [Scalar α] {A : Table α} {C : Cholesky α A.height}
    (made : A.cholesky = some C) (b : Coords α) (system : String) :
    solveDefinite A b system = liftM (C.solve b) := by
  rw [solveDefinite, made]

/-- Against a positive definite table the direction that takes a column to its negative descends along it. -/
theorem descends_of_posDef {m : Nat} {M : Matrix (Fin m) (Fin m) ℝ} (definite : M.PosDef) {d r : Fin m → ℝ}
    (solved : M.mulVec d = -r) : r ⬝ᵥ d ≤ 0 ∧ (r ⬝ᵥ d < 0 ↔ r ≠ 0) := by
  have slope : r ⬝ᵥ d = -(d ⬝ᵥ M.mulVec d) := by
    rw [solved, dotProduct_neg, neg_neg, dotProduct_comm]
  by_cases still : d = 0
  · have zero : r = 0 := by simpa [still] using solved
    simp [zero]
  · have positive : 0 < d ⬝ᵥ M.mulVec d := by simpa using definite.dotProduct_mulVec_pos still
    have nonzero : r ≠ 0 := by
      rintro rfl
      rw [zero_dotProduct, zero_eq_neg] at slope
      exact positive.ne' slope
    exact ⟨by linarith, iff_of_true (by linarith) nonzero⟩

end Downhill
