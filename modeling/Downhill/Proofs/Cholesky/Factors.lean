import Mathlib
import Downhill.Cholesky
import Downhill.Proofs.Elimination.Factors

namespace Downhill

/-- The symmetric matrix with the lower triangle of a square. -/
noncomputable def Square.mirrored {n : Nat} (A : Square ℝ n) : Matrix (Fin n) (Fin n) ℝ :=
  Matrix.of fun i j => if j ≤ i then A i j else A j i

namespace Cholesky

variable {n : Nat} {A L L' : Square ℝ n}

/-- A triangle whose first `k` columns are done, with zeros behind them. -/
structure Factored (A : Square ℝ n) (k : Nat) (L : Square ℝ n) : Prop where
  triangle : ∀ i j, i < j → L i j = 0
  ahead : ∀ i j : Fin n, k ≤ j.val → L i j = 0
  pivots : ∀ j : Fin n, j.val < k → 0 < L j j
  product : ∀ i j : Fin n, j.val < k → j ≤ i → (L.matrix * L.matrix.transpose) i j = A i j

theorem factored_start (A : Square ℝ n) : Factored A 0 (.ofFn fun _ _ => 0) where
  triangle _ _ _ := Square.entry_ofFn _ _ _
  ahead _ _ _ := Square.entry_ofFn _ _ _
  pivots _ none := absurd none (Nat.not_lt_zero _)
  product _ _ none := absurd none (Nat.not_lt_zero _)

/-- What the columns that are done contribute is the product with the transpose. -/
theorem Factored.overlap_eq {j : Fin n} (kept : Factored A j L) (i : Fin n) :
    overlap L i j = (L.matrix * L.matrix.transpose) i j := by
  rw [overlap, Scalar.total_exact, Square.sum_before, Matrix.mul_apply]
  refine Finset.sum_congr rfl fun l _ => ?_
  split
  · rfl
  · rename_i behind
    have zero : L i l = 0 := kept.ahead i l (not_lt.mp behind)
    simp [Square.matrix, zero]

/-- The column that is added next, under a positive pivot. -/
noncomputable def column (A L : Square ℝ n) (j i : Fin n) : ℝ :=
  if i = j then √(A j j - overlap L j j)
  else if j < i then (A i j - overlap L i j) / √(A j j - overlap L j j)
  else 0

/-- A triangle with an entry put into every place of one column. -/
noncomputable def withColumn (L : Square ℝ n) (j : Fin n) (c : Fin n → ℝ) : Square ℝ n :=
  .ofFn fun i l => L i l + if l = j then c i else 0

theorem Factored.step_eq_some {j : Fin n} (kept : Factored A j L) : step A L j = some L' ↔
    0 < A j j - overlap L j j ∧ withColumn L j (column A L j) = L' := by
  by_cases positive : 0 < A j j - overlap L j j
  · have next : withColumn L j (column A L j) = .ofFn fun i k =>
        if k = j then
          if i = j then √(A j j - overlap L j j)
          else if j < i then (A i j - overlap L i j) / √(A j j - overlap L j j)
          else L i k
        else L i k := by
      ext i l
      rw [withColumn, Square.entry_ofFn, Square.entry_ofFn]
      by_cases here : l = j
      · subst here
        rw [if_pos rfl, if_pos rfl, kept.ahead i l le_rfl, zero_add, column]
      · rw [if_neg here, if_neg here, add_zero]
    simp [step, positive, next]
  · simp [step, positive]

theorem product_withColumn {j : Fin n} (empty : ∀ i, L i j = 0) (c : Fin n → ℝ) :
    (withColumn L j c).matrix * (withColumn L j c).matrix.transpose =
      L.matrix * L.matrix.transpose + Matrix.vecMulVec c c := by
  ext i k
  have terms : ∀ l, (withColumn L j c) i l * (withColumn L j c) k l =
      L i l * L k l + if l = j then c i * c k else 0 := by
    intro l
    rw [withColumn, Square.entry_ofFn, Square.entry_ofFn]
    split
    · rename_i here
      rw [here, empty i, empty k]
      ring
    · ring
  simp only [Matrix.add_apply, Matrix.mul_apply, Matrix.transpose_apply, Square.matrix, Matrix.of_apply,
    terms, Finset.sum_add_distrib, Finset.sum_ite_eq', Finset.mem_univ, if_true, Matrix.vecMulVec_apply]

theorem Factored.step {j : Fin n} (kept : Factored A j L) (made : step A L j = some L') :
    Factored A (j + 1) L' := by
  obtain ⟨positive, rfl⟩ := kept.step_eq_some.mp made
  have root : √(A j j - overlap L j j) ≠ 0 := (Real.sqrt_pos.mpr positive).ne'
  constructor
  · intro i l front
    rw [withColumn, Square.entry_ofFn, kept.triangle i l front, zero_add]
    split
    · rename_i here
      rw [column, if_neg (here ▸ front.ne), if_neg (here ▸ front.not_gt)]
    · rfl
  · intro i l behind
    have apart : l ≠ j := fun same => by omega
    rw [withColumn, Square.entry_ofFn, kept.ahead i l (by omega), if_neg apart, add_zero]
  · intro l within
    rw [withColumn, Square.entry_ofFn]
    split
    · rename_i here
      rw [here, kept.ahead j j le_rfl, zero_add, column, if_pos rfl]
      exact Real.sqrt_pos.mpr positive
    · rename_i apart
      rw [add_zero]
      exact kept.pivots l (by omega)
  · intro i l within below
    rw [product_withColumn fun i => kept.ahead i j le_rfl, Matrix.add_apply, Matrix.vecMulVec_apply]
    by_cases here : l = j
    · subst here
      rw [← kept.overlap_eq]
      by_cases same : i = l
      · subst same
        rw [column, if_pos rfl, Real.mul_self_sqrt positive.le]
        ring
      · have behind : l < i := lt_of_le_of_ne below (Ne.symm same)
        rw [column, column, if_neg same, if_pos behind, if_pos rfl, div_mul_cancel₀ _ root]
        ring
    · have front : l < j := by omega
      have zero : column A L j l = 0 := by rw [column, if_neg here, if_neg front.not_gt]
      rw [zero, mul_zero, add_zero]
      exact kept.product i l front below

theorem Factored.product_eq_mirrored {k : Nat} (kept : Factored A k L) {i l : Fin n}
    (done : i.val < k ∨ l.val < k) : (L.matrix * L.matrix.transpose) i l = A.mirrored i l := by
  rw [Square.mirrored, Matrix.of_apply]
  split
  · rename_i below
    exact kept.product i l (by omega) below
  · rename_i above
    rw [← (Matrix.isSymm_mul_transpose_self L.matrix).apply]
    exact kept.product l i (by omega) (not_le.mp above).le

/-- Columns with entries on the diagonal, those that are done and unit columns behind them, reach
every vector. -/
theorem Factored.solvable {k : Nat} (kept : Factored A k L) (b : Fin n → ℝ) :
    ∃ v : Fin n → ℝ, ∀ l, (if l.val < k then ∑ i, L i l * v i else v l) = b l := by
  let T : Matrix (Fin n) (Fin n) ℝ := Matrix.of fun i l => if l.val < k then L i l else if i = l then 1 else 0
  have regular : T.det ≠ 0 := by
    have triangle : T.IsLowerTriangular := by
      intro i l less
      have front : i < l := less
      simp [T, front.ne, kept.triangle i l front]
    rw [Matrix.det_of_isLowerTriangular _ triangle]
    refine Finset.prod_ne_zero_iff.mpr fun i _ => ?_
    by_cases done : i.val < k
    · simp [T, done, (kept.pivots i done).ne']
    · simp [T, done]
  have unit : IsUnit T.transpose := by
    rw [Matrix.isUnit_iff_isUnit_det, Matrix.det_transpose]
    exact regular.isUnit
  obtain ⟨v, solves⟩ := Matrix.mulVec_surjective_iff_isUnit.mpr unit b
  refine ⟨v, fun l => ?_⟩
  rw [← congrFun solves l]
  split
  · rename_i done
    simp [T, Matrix.mulVec, dotProduct, done]
  · rename_i late
    simp [T, Matrix.mulVec, dotProduct, late]

/-- A direction along which the quadratic form has the value of the next pivot. -/
theorem Factored.direction {j : Fin n} (kept : Factored A j L) :
    ∃ v : Fin n → ℝ, v ≠ 0 ∧ v ⬝ᵥ A.mirrored.mulVec v = A j j - overlap L j j := by
  -- Orthogonal to all columns that are done, one at `j` and zero behind it: of the form only the pivot is left.
  obtain ⟨v, solves⟩ := kept.solvable (Pi.single j 1)
  have here : v j = 1 := by simpa using solves j
  have beyond : ∀ i, j < i → v i = 0 := by
    intro i behind
    have late : ¬ i.val < j.val := by omega
    simpa [late, behind.ne'] using solves i
  have still : L.matrix.transpose.mulVec v = 0 := by
    funext l
    change ∑ i, L i l * v i = 0
    by_cases done : l.val < j.val
    · have front : l ≠ j := fun same => by omega
      simpa [done, front] using solves l
    · exact Finset.sum_eq_zero fun i _ => by rw [kept.ahead i l (not_lt.mp done), zero_mul]
  have entries : ∀ i l, i ≤ j → l ≤ j → A.mirrored i l =
      (L.matrix * L.matrix.transpose + Matrix.single j j (A j j - overlap L j j)) i l := by
    intro i l first second
    rw [Matrix.add_apply]
    by_cases last : i = j ∧ l = j
    · obtain ⟨rfl, rfl⟩ := last
      rw [← kept.overlap_eq, Matrix.single_apply_same, Square.mirrored, Matrix.of_apply, if_pos le_rfl]
      ring
    · have apart : ¬ (j = i ∧ j = l) := fun same => last ⟨same.1.symm, same.2.symm⟩
      rw [Matrix.single_apply, if_neg apart, add_zero]
      exact (kept.product_eq_mirrored (by omega)).symm
  have rows : ∀ i, i ≤ j → A.mirrored.mulVec v i =
      (L.matrix * L.matrix.transpose + Matrix.single j j (A j j - overlap L j j)).mulVec v i := by
    intro i first
    simp only [Matrix.mulVec, dotProduct]
    refine Finset.sum_congr rfl fun l _ => ?_
    rcases le_or_gt l j with second | late
    · rw [entries i l first second]
    · rw [beyond l late, mul_zero, mul_zero]
  refine ⟨v, fun zero => ?_, ?_⟩
  · rw [zero] at here
    exact zero_ne_one here
  · calc v ⬝ᵥ A.mirrored.mulVec v
        = v ⬝ᵥ (L.matrix * L.matrix.transpose +
            Matrix.single j j (A j j - overlap L j j)).mulVec v := by
          refine Finset.sum_congr rfl fun i _ => ?_
          rcases le_or_gt i j with first | late
          · rw [rows i first]
          · rw [beyond i late, zero_mul, zero_mul]
      _ = A j j - overlap L j j := by
          rw [Matrix.add_mulVec, ← Matrix.mulVec_mulVec, still, Matrix.mulVec_zero, zero_add,
            Matrix.single_mulVec, here, mul_one]
          change v ⬝ᵥ Pi.single j _ = _
          rw [dotProduct_single, here, one_mul]

/-- The factorization goes through, or there is a direction along which the form is not positive. -/
theorem factor_cases (A : Square ℝ n) : (∃ C, factor A = some C ∧ Factored A n C.lower) ∨
    (factor A = none ∧ ∃ v, v ≠ 0 ∧ v ⬝ᵥ A.mirrored.mulVec v ≤ 0) := by
  rcases Square.columns_cases (Factored A) (fun _ _ _ kept made => kept.step made) (factored_start A) with
    ⟨L, made, kept⟩ | ⟨refused, j, L, kept, stuck⟩
  · exact Or.inl ⟨⟨L⟩, by rw [factor, made]; rfl, kept⟩
  · obtain ⟨v, nonzero, value⟩ := kept.direction
    refine Or.inr ⟨by rw [factor, refused]; rfl, v, nonzero, value ▸ not_lt.mp fun positive => ?_⟩
    cases stuck.symm.trans (kept.step_eq_some.mpr ⟨positive, rfl⟩)

theorem factored_of_factor {C : Cholesky ℝ n} (made : factor A = some C) : Factored A n C.lower := by
  rcases factor_cases A with ⟨other, found, kept⟩ | ⟨refused, _⟩
  · exact Option.some.inj (found.symm.trans made) ▸ kept
  · cases refused.symm.trans made

end Cholesky

end Downhill
