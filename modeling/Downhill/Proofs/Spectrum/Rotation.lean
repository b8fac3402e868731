import Mathlib
import Downhill.Proofs.Elimination.Factors
import Downhill.Spectrum

namespace Downhill

/-- Seen from other orthonormal axes, the second square is the first. -/
def Square.Similar {n : Nat} (A B : Square ℝ n) : Prop :=
  ∃ Q : Matrix (Fin n) (Fin n) ℝ, Q.transpose * Q = 1 ∧ B.matrix = Q.transpose * A.matrix * Q

theorem Square.mem_above {n : Nat} {place : Fin n × Fin n} :
    place ∈ above n ↔ place.1 < place.2 := by
  obtain ⟨i, j⟩ := place
  simp [above, after]

namespace Square.Similar

variable {n : Nat} {A B C : Square ℝ n}

theorem refl (A : Square ℝ n) : Similar A A :=
  ⟨1, by simp, by simp⟩

theorem trans (first : Similar A B) (second : Similar B C) : Similar A C := by
  obtain ⟨Q, orthogonal, turned⟩ := first
  obtain ⟨R, further, again⟩ := second
  refine ⟨Q * R, ?_, ?_⟩
  · calc (Q * R).transpose * (Q * R) = R.transpose * (Q.transpose * Q) * R := by
          rw [Matrix.transpose_mul]
          simp only [Matrix.mul_assoc]
      _ = 1 := by rw [orthogonal, Matrix.mul_one, further]
  · rw [again, turned, Matrix.transpose_mul]
    simp only [Matrix.mul_assoc]

theorem symm (similar : Similar A B) : Similar B A := by
  obtain ⟨Q, orthogonal, turned⟩ := similar
  have back : Q * Q.transpose = 1 := mul_eq_one_comm.mp orthogonal
  refine ⟨Q.transpose, by rwa [Matrix.transpose_transpose], ?_⟩
  calc A.matrix = (Q * Q.transpose) * A.matrix * (Q * Q.transpose) := by rw [back, Matrix.one_mul, Matrix.mul_one]
    _ = Q.transpose.transpose * B.matrix * Q.transpose := by
      rw [turned, Matrix.transpose_transpose]
      simp only [Matrix.mul_assoc]

theorem isSymm (similar : Similar A B) (symmetric : A.matrix.IsSymm) : B.matrix.IsSymm := by
  obtain ⟨Q, _, turned⟩ := similar
  rw [Matrix.IsSymm, turned, Matrix.transpose_mul, Matrix.transpose_mul, Matrix.transpose_transpose,
    symmetric.eq, Matrix.mul_assoc]

/-- A lower bound of one quadratic form is one of the other. -/
theorem form_ge (similar : Similar A B) {low : ℝ}
    (bound : ∀ y : Fin n → ℝ, low * (y ⬝ᵥ y) ≤ y ⬝ᵥ B.matrix.mulVec y) (x : Fin n → ℝ) :
    low * (x ⬝ᵥ x) ≤ x ⬝ᵥ A.matrix.mulVec x := by
  obtain ⟨Q, orthogonal, turned⟩ := similar
  have back : Q * Q.transpose = 1 := mul_eq_one_comm.mp orthogonal
  have length : Q.transpose.mulVec x ⬝ᵥ Q.transpose.mulVec x = x ⬝ᵥ x := by
    rw [Matrix.dotProduct_mulVec, Matrix.vecMul_transpose, Matrix.mulVec_mulVec, back, Matrix.one_mulVec]
  have form : Q.transpose.mulVec x ⬝ᵥ B.matrix.mulVec (Q.transpose.mulVec x) =
      x ⬝ᵥ A.matrix.mulVec x := by
    calc Q.transpose.mulVec x ⬝ᵥ B.matrix.mulVec (Q.transpose.mulVec x)
        = x ⬝ᵥ ((Q * Q.transpose) * A.matrix * (Q * Q.transpose)).mulVec x := by
          rw [turned, Matrix.mulVec_transpose, ← Matrix.dotProduct_mulVec, ← Matrix.mulVec_transpose,
            Matrix.mulVec_mulVec, Matrix.mulVec_mulVec]
          simp only [Matrix.mul_assoc]
      _ = x ⬝ᵥ A.matrix.mulVec x := by rw [back, Matrix.one_mul, Matrix.mul_one]
  rw [← length, ← form]
  exact bound _

theorem trace_eq (similar : Similar A B) : B.matrix.trace = A.matrix.trace := by
  obtain ⟨Q, orthogonal, turned⟩ := similar
  rw [turned, Matrix.trace_mul_cycle, mul_eq_one_comm.mp orthogonal, Matrix.one_mul]

/-- The squares of all entries have one sum, from whatever axes they are seen. -/
theorem sum_sq_eq (similar : Similar A B) : ∑ i, ∑ j, B i j ^ 2 = ∑ i, ∑ j, A i j ^ 2 := by
  have gram : ∀ C : Square ℝ n, ∑ i, ∑ j, C i j ^ 2 = (C.matrix * C.matrix.transpose).trace := by
    intro C
    simp only [Matrix.trace, Matrix.diag_apply, Matrix.mul_apply, Matrix.transpose_apply, sq]
    rfl
  obtain ⟨Q, orthogonal, turned⟩ := similar
  have back : Q * Q.transpose = 1 := mul_eq_one_comm.mp orthogonal
  rw [gram, gram]
  calc (B.matrix * B.matrix.transpose).trace
      = (Q.transpose * (A.matrix * (Q * Q.transpose) * A.matrix.transpose) * Q).trace := by
        rw [turned, Matrix.transpose_mul, Matrix.transpose_mul, Matrix.transpose_transpose]
        simp only [Matrix.mul_assoc]
    _ = (A.matrix * A.matrix.transpose).trace := by
        rw [Matrix.trace_mul_cycle, back, Matrix.one_mul, Matrix.mul_one]

end Square.Similar

namespace Rotation

variable {n : Nat}

/-- The column of a rotation in the plane of `p` and `q`. -/
def axis (p q : Fin n) (c s : ℝ) (j : Fin n) : Fin n → ℝ :=
  if j = p then c • Pi.single p 1 - s • Pi.single q 1
  else if j = q then s • Pi.single p 1 + c • Pi.single q 1
  else Pi.single j 1

/-- The rotation in the plane of `p` and `q`. -/
def plane (p q : Fin n) (c s : ℝ) : Matrix (Fin n) (Fin n) ℝ :=
  Matrix.of fun i j => axis p q c s j i

theorem matrix_turnColumns (A : Square ℝ n) (p q : Fin n) (c s : ℝ) :
    (turnColumns A p q c s).matrix = A.matrix * plane p q c s := by
  ext i j
  change (turnColumns A p q c s) i j = A.matrix i ⬝ᵥ axis p q c s j
  rw [turnColumns, Square.entry_ofFn, axis]
  split_ifs <;> simp [Square.matrix, dotProduct_sub, dotProduct_add]

theorem matrix_turnRows (A : Square ℝ n) (p q : Fin n) (c s : ℝ) :
    (turnRows A p q c s).matrix = (plane p q c s).transpose * A.matrix := by
  ext i j
  change (turnRows A p q c s) i j = axis p q c s i ⬝ᵥ fun k => A.matrix k j
  rw [turnRows, Square.entry_ofFn, axis]
  split_ifs <;> simp [Square.matrix, sub_dotProduct, add_dotProduct]

theorem plane_orthogonal {p q : Fin n} (apart : p ≠ q) {c s : ℝ} (unit : c * c + s * s = 1) :
    (plane p q c s).transpose * plane p q c s = 1 := by
  ext i j
  change axis p q c s i ⬝ᵥ axis p q c s j = (1 : Matrix (Fin n) (Fin n) ℝ) i j
  rw [axis, axis, Matrix.one_apply]
  -- Each axis is the first of the plane, the second, or one that stays.
  split_ifs <;> simp only [sub_dotProduct, add_dotProduct, smul_dotProduct, dotProduct_sub,
    dotProduct_add, dotProduct_smul, single_dotProduct, Pi.single_apply, smul_eq_mul]
  all_goals grind

theorem similar_rotate (A : Square ℝ n) {p q : Fin n} (apart : p ≠ q) : A.Similar (rotate A p q) := by
  let t := tangent A p q
  let c := 1 / √(t * t + 1)
  have positive : 0 < t * t + 1 := by nlinarith [mul_self_nonneg t]
  have unit : c * c + t * c * (t * c) = 1 := by
    calc c * c + t * c * (t * c) = (t * t + 1) * (c * c) := by ring
      _ = 1 := by
        rw [div_mul_div_comm, one_mul, Real.mul_self_sqrt positive.le, mul_one_div_cancel positive.ne']
  refine ⟨plane p q c (t * c), plane_orthogonal apart unit, ?_⟩
  change (turnRows (turnColumns A p q c (t * c)) p q c (t * c)).matrix = _
  rw [matrix_turnRows, matrix_turnColumns, Matrix.mul_assoc]

theorem similar_clear (A : Square ℝ n) {place : Fin n × Fin n} (above : place.1 < place.2) :
    A.Similar (clear A place) := by
  unfold clear
  split
  · exact .refl A
  · exact similar_rotate A above.ne

theorem similar_foldl_clear (places : List (Fin n × Fin n)) (above : ∀ place ∈ places, place.1 < place.2)
    (A : Square ℝ n) : A.Similar (places.foldl clear A) := by
  induction places generalizing A with
  | nil => exact .refl A
  | cons place rest ih =>
    exact (similar_clear A (above place List.mem_cons_self)).trans
      (ih (fun other member => above other (List.mem_cons_of_mem place member)) _)

theorem similar_sweep (A : Square ℝ n) : A.Similar (sweep A) :=
  similar_foldl_clear _ (fun _ => Square.mem_above.mp) A

end Rotation

namespace Spectrum

variable {n : Nat}

theorem similar_diagonalize (bound : ℝ) (sweeps : Nat) (A : Square ℝ n) :
    A.Similar (diagonalize bound sweeps A).1 := by
  induction sweeps generalizing A with
  | zero => exact .refl A
  | succ sweeps ih =>
    unfold diagonalize
    split
    · exact .refl A
    · exact (Rotation.similar_sweep A).trans (ih _)

theorem offDiagonal_le_of_settled {bound : ℝ} {sweeps : Nat} {A : Square ℝ n}
    (settled : (diagonalize bound sweeps A).2 = true) : offDiagonal (diagonalize bound sweeps A).1 ≤ bound := by
  induction sweeps generalizing A with
  | zero => cases settled
  | succ sweeps ih =>
    unfold diagonalize at settled ⊢
    split
    · assumption
    · rename_i large
      rw [if_neg large] at settled
      exact ih settled

end Spectrum

end Downhill
