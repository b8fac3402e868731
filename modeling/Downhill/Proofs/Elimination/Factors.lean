import Mathlib
import Downhill.Elimination
import Downhill.Proofs.Loops
import Downhill.Proofs.Matrices

namespace Downhill

/-- The entries of a square as a matrix. -/
noncomputable def Square.matrix {n : Nat} (A : Square ℝ n) : Matrix (Fin n) (Fin n) ℝ :=
  Matrix.of fun i j => A i j

namespace Elimination

variable {n : Nat}

theorem largest_foldl (size : Fin n → ℝ) (rows : List (Fin n)) (best : Fin n) :
    let found := rows.foldl (fun best i => if size best < size i then i else best) best
    (found = best ∨ found ∈ rows) ∧ size best ≤ size found ∧ ∀ i ∈ rows, size i ≤ size found := by
  induction rows generalizing best with
  | nil => simp
  | cons first rest ih =>
    rw [List.foldl_cons]
    by_cases larger : size best < size first
    · rw [if_pos larger]
      obtain ⟨place, above, others⟩ := ih first
      refine ⟨Or.inr ?_, larger.le.trans above, fun i member => ?_⟩
      · rcases place with same | later
        · exact List.mem_cons.mpr (Or.inl same)
        · exact List.mem_cons_of_mem first later
      · rcases List.mem_cons.mp member with rfl | later
        · exact above
        · exact others i later
    · rw [if_neg larger]
      obtain ⟨place, above, others⟩ := ih best
      refine ⟨place.imp_right (List.mem_cons_of_mem first), above, fun i member => ?_⟩
      rcases List.mem_cons.mp member with rfl | later
      · exact (not_lt.mp larger).trans above
      · exact others i later

theorem le_pivotRow (A : Square ℝ n) (column : Fin n) : column ≤ pivotRow A column := by
  rcases (largest_foldl (fun i => |A i column|) (Square.after column) column).1 with same | later
  · exact same.ge
  · exact (of_decide_eq_true (List.mem_filter.mp later).2).le

/-- No entry of the column, from the diagonal downwards, is larger than that of the pivot row. -/
theorem abs_le_pivotRow (A : Square ℝ n) {column i : Fin n} (below : column ≤ i) :
    |A i column| ≤ |A (pivotRow A column) column| := by
  obtain ⟨_, top, others⟩ := largest_foldl (fun i => |A i column|) (Square.after column) column
  rcases below.eq_or_lt with rfl | behind
  · exact top
  · exact others i (List.mem_filter.mpr ⟨List.mem_finRange i, by simpa using behind⟩)

/-- The stored multipliers of the first `k` columns, under ones on the diagonal. -/
def lowerPart (M : Square ℝ n) (k : Nat) : Matrix (Fin n) (Fin n) ℝ :=
  Matrix.of fun i l => if l < i ∧ l.val < k then M i l else if i = l then 1 else 0

/-- The rows with zeros where the first `k` columns hold multipliers. -/
def upperPart (M : Square ℝ n) (k : Nat) : Matrix (Fin n) (Fin n) ℝ :=
  Matrix.of fun l j => if j < l ∧ j.val < k then 0 else M l j

/-- A square of which the first `k` columns have been eliminated. -/
structure Eliminated (A : Square ℝ n) (k : Nat) (E : Elimination ℝ n) : Prop where
  permuted : Function.Injective E.order.get
  product : lowerPart E.cells k * upperPart E.cells k = A.matrix.submatrix E.order.get id
  bounded : ∀ i l, l < i → l.val < k → |E.cells i l| ≤ 1
  pivots : ∀ l, l.val < k → pivotFloor ≤ |E.cells l l|

/-- The order of the rows is a permutation of their places. -/
noncomputable def Eliminated.rows {A : Square ℝ n} {k : Nat} {E : Elimination ℝ n} (kept : Eliminated A k E) :
    Equiv.Perm (Fin n) :=
  Equiv.ofBijective E.order.get (Finite.injective_iff_bijective.mp kept.permuted)

theorem Eliminated.det_rows {A : Square ℝ n} {k : Nat} {E : Elimination ℝ n} (kept : Eliminated A k E) :
    (A.matrix.submatrix E.order.get id).det = Equiv.Perm.sign kept.rows * A.matrix.det :=
  Matrix.det_permute kept.rows A.matrix

theorem eliminated_start (A : Square ℝ n) : Eliminated A 0 (start A) where
  permuted := by
    intro i j same
    simpa [start] using same
  product := by
    have ones : lowerPart A 0 = 1 := by
      ext i l
      simp [lowerPart, Matrix.one_apply]
    have all : upperPart A 0 = A.matrix := by
      ext l j
      simp [upperPart, Square.matrix]
    have order : (start A).order.get = id := by
      funext i
      simp [start]
    change lowerPart A 0 * upperPart A 0 = _
    rw [ones, all, one_mul, order, Matrix.submatrix_id_id]
  bounded i l _ none := absurd none (Nat.not_lt_zero _)
  pivots l none := absurd none (Nat.not_lt_zero _)

theorem exchanged_eq_swap (a b i : Fin n) : exchanged a b i = Equiv.swap a b i :=
  (Equiv.swap_apply_def a b i).symm

/-- Positions in front of both rows keep their place, and stay in front of what they were in front of. -/
theorem swap_of_lt {column row j : Fin n} (order : column ≤ row) (front : j < column) :
    Equiv.swap column row j = j :=
  Equiv.swap_apply_of_ne_of_ne front.ne (front.trans_le order).ne

theorem lt_swap_iff {column row j l : Fin n} (order : column ≤ row) (front : j < column) :
    j < Equiv.swap column row l ↔ j < l := by
  rcases eq_or_ne l column with rfl | notColumn
  · rw [Equiv.swap_apply_left]
    exact iff_of_true (front.trans_le order) front
  · rcases eq_or_ne l row with rfl | notRow
    · rw [Equiv.swap_apply_right]
      exact iff_of_true front (front.trans_le order)
    · rw [Equiv.swap_apply_of_ne_of_ne notColumn notRow]

theorem cells_exchangeRows (E : Elimination ℝ n) (a b i j : Fin n) :
    (E.exchangeRows a b).cells i j = E.cells (Equiv.swap a b i) j := by
  rw [exchangeRows, Square.entry_ofFn, exchanged_eq_swap]

theorem order_exchangeRows (E : Elimination ℝ n) (a b : Fin n) :
    (E.exchangeRows a b).order.get = E.order.get ∘ Equiv.swap a b := by
  funext i
  simp [exchangeRows, exchanged_eq_swap]

/-- Stored multipliers move with their rows, so exchanging two rows behind the eliminated columns
keeps the square eliminated so far. -/
theorem Eliminated.exchangeRows {A : Square ℝ n} {E : Elimination ℝ n} {column row : Fin n}
    (kept : Eliminated A column E) (order : column ≤ row) :
    Eliminated A column (E.exchangeRows column row) where
  permuted := by
    rw [order_exchangeRows]
    exact kept.permuted.comp (Equiv.swap column row).injective
  product := by
    have lower : lowerPart (E.exchangeRows column row).cells column =
        (lowerPart E.cells column).submatrix (Equiv.swap column row) (Equiv.swap column row) := by
      ext i l
      simp only [lowerPart, Matrix.of_apply, Matrix.submatrix_apply, cells_exchangeRows,
        EmbeddingLike.apply_eq_iff_eq]
      by_cases front : l < column
      · simp only [swap_of_lt order front, lt_swap_iff order front]
      · have notFront : ¬ l.val < column.val := front
        have notThere : ¬ (Equiv.swap column row l).val < column.val := by
          intro less
          have fixed := swap_of_lt order less
          rw [Equiv.swap_apply_self] at fixed
          rw [← fixed] at less
          exact notFront less
        simp only [notFront, notThere, and_false, if_false]
    have upper : upperPart (E.exchangeRows column row).cells column =
        (upperPart E.cells column).submatrix (Equiv.swap column row) id := by
      ext l j
      simp only [upperPart, Matrix.of_apply, Matrix.submatrix_apply, cells_exchangeRows, id_eq]
      by_cases front : j < column
      · simp only [lt_swap_iff order front]
      · have notFront : ¬ j.val < column.val := front
        simp only [notFront, and_false, if_false]
    rw [lower, upper, Matrix.submatrix_mul_equiv, kept.product, order_exchangeRows,
      Matrix.submatrix_submatrix]
    rfl
  bounded i l less within := by
    rw [cells_exchangeRows]
    exact kept.bounded _ l ((lt_swap_iff order within).mpr less) within
  pivots l within := by
    rw [cells_exchangeRows, swap_of_lt order within]
    exact kept.pivots l within

/-- The multiples of the pivot row that are taken off the rows below it. -/
noncomputable def multiples (M : Square ℝ n) (column : Fin n) : Fin n → ℝ :=
  fun i => if column < i then M i column / M column column else 0

theorem lowerPart_clearColumn (M : Square ℝ n) (column : Fin n) :
    lowerPart (clearColumn M column) (column + 1) =
      lowerPart M column + Matrix.vecMulVec (multiples M column) (Pi.single column 1) := by
  ext i l
  simp only [lowerPart, Matrix.add_apply, Matrix.of_apply, Matrix.vecMulVec_apply, multiples,
    clearColumn, Square.entry_ofFn]
  rcases lt_trichotomy l column with front | rfl | behind
  · have inside : l.val < column.val := front
    have next : l.val < column.val + 1 := by omega
    simp [front, inside, next, Pi.single_eq_of_ne front.ne]
  · by_cases below : l < i
    · simp [below, below.ne']
    · simp [below]
  · have outside : ¬ l.val < column.val := not_lt.mpr (Fin.le_of_lt behind)
    have later : ¬ l.val < column.val + 1 := by
      have less : column.val < l.val := behind
      omega
    simp [outside, later, Pi.single_eq_of_ne behind.ne']

theorem upperPart_clearColumn (M : Square ℝ n) {column : Fin n} (pivot : M column column ≠ 0) :
    upperPart (clearColumn M column) (column + 1) =
      upperPart M column -
        Matrix.vecMulVec (multiples M column) (upperPart M column column) := by
  ext l j
  simp only [upperPart, Matrix.sub_apply, Matrix.of_apply, Matrix.vecMulVec_apply, multiples,
    clearColumn, Square.entry_ofFn]
  by_cases below : column < l
  · rcases lt_trichotomy j column with front | rfl | behind
    · have inside : j.val < column.val := front
      have next : j.val < column.val + 1 := by omega
      simp [front, inside, next, front.trans below]
    · simp [below, div_mul_cancel₀ _ pivot]
    · have outside : ¬ j.val < column.val := not_lt.mpr (Fin.le_of_lt behind)
      have later : ¬ j.val < column.val + 1 := by
        have less : column.val < j.val := behind
        omega
      simp [below, outside, later, behind.not_gt, behind.ne']
  · have same : (j < l ∧ j.val < column.val + 1) ↔ (j < l ∧ j.val < column.val) := by
      have above : l.val ≤ column.val := not_lt.mp below
      constructor
      · rintro ⟨less, _⟩
        have order : j.val < l.val := less
        exact ⟨less, by omega⟩
      · rintro ⟨less, within⟩
        exact ⟨less, by omega⟩
    simp only [below, same, if_false, zero_mul, sub_zero]

/-- In the columns that are not eliminated yet the lower triangle is that of the identity. -/
theorem lowerPart_mulVec_of_late (M : Square ℝ n) {k : Nat} {v : Fin n → ℝ} (late : ∀ l, l.val < k → v l = 0) :
    (lowerPart M k).mulVec v = v := by
  funext i
  rw [Matrix.mulVec, dotProduct, Finset.sum_eq_single i (fun l _ other => ?_) (by simp)]
  · simp [lowerPart]
  · by_cases front : l.val < k
    · rw [late l front, mul_zero]
    · simp [lowerPart, front, other.symm]

/-- The multiples added to the lower triangle undo what was taken off the upper one. -/
theorem product_clearColumn (M : Square ℝ n) {column : Fin n} (pivot : M column column ≠ 0) :
    lowerPart (clearColumn M column) (column + 1) * upperPart (clearColumn M column) (column + 1) =
      lowerPart M column * upperPart M column := by
  have row : Matrix.vecMul (Pi.single column 1) (upperPart M column) = upperPart M column column :=
    Matrix.single_one_vecMul column _
  have zero : (Pi.single column 1 : Fin n → ℝ) ⬝ᵥ multiples M column = 0 := by
    simp [multiples]
  have late : ∀ l : Fin n, l.val < column.val → multiples M column l = 0 := fun l front =>
    if_neg (lt_asymm (show l < column from front))
  rw [lowerPart_clearColumn, upperPart_clearColumn M pivot, Matrix.add_mul, Matrix.mul_sub,
    Matrix.mul_sub, Matrix.mul_vecMulVec, lowerPart_mulVec_of_late M late, Matrix.vecMulVec_mul, row,
    Matrix.vecMulVec_mul_vecMulVec, zero, zero_smul, Matrix.vecMulVec_zero]
  abel

/-- A column is cleared by multiples of at most one where its pivot is the largest entry. -/
theorem Eliminated.clearColumn {A : Square ℝ n} {E : Elimination ℝ n} {column : Fin n}
    (kept : Eliminated A column E) (clear : pivotFloor ≤ |E.cells column column|)
    (largest : ∀ i, column < i → |E.cells i column| ≤ |E.cells column column|) :
    Eliminated A (column + 1) { E with cells := clearColumn E.cells column } where
  permuted := kept.permuted
  product := by
    have positive : (0 : ℝ) < pivotFloor := by norm_num [pivotFloor]
    have pivot : E.cells column column ≠ 0 := abs_pos.mp (positive.trans_le clear)
    exact (product_clearColumn E.cells pivot).trans kept.product
  bounded i l less within := by
    change |(Elimination.clearColumn E.cells column) i l| ≤ 1
    rw [Elimination.clearColumn, Square.entry_ofFn]
    by_cases front : l < column
    · simpa [front, front.ne] using kept.bounded i l less front
    · obtain rfl : l = column := Fin.ext (by
        have notFront : ¬ l.val < column.val := front
        omega)
      simp only [less, if_true, lt_irrefl, if_false, abs_div]
      exact div_le_one_of_le₀ (largest i less) (abs_nonneg _)
  pivots l within := by
    change pivotFloor ≤ |(Elimination.clearColumn E.cells column) l l|
    have upper : ¬ column < l := not_lt.mpr (Nat.lt_succ_iff.mp within)
    rw [Elimination.clearColumn, Square.entry_ofFn, if_neg upper]
    by_cases front : l < column
    · exact kept.pivots l front
    · obtain rfl : l = column := le_antisymm (not_lt.mp upper) (not_lt.mp front)
      exact clear

theorem Eliminated.step {A : Square ℝ n} {E E' : Elimination ℝ n} {column : Fin n}
    (kept : Eliminated A column E) (made : step E column = some E') :
    Eliminated A (column + 1) E' := by
  unfold Elimination.step at made
  dsimp only at made
  split at made
  · cases made
  · rename_i clear
    cases made
    have order := le_pivotRow E.cells column
    have exchanged := kept.exchangeRows order
    have pivot : (E.exchangeRows column (pivotRow E.cells column)).cells column column =
        E.cells (pivotRow E.cells column) column := by
      rw [cells_exchangeRows, Equiv.swap_apply_left]
    refine exchanged.clearColumn ?_ fun i below => ?_
    · rw [pivot]
      exact not_lt.mp (not_or.mp clear).1
    · rw [pivot, cells_exchangeRows]
      refine abs_le_pivotRow E.cells (not_lt.mp fun front => ?_)
      have fixed := swap_of_lt order front
      rw [Equiv.swap_apply_self] at fixed
      exact (front.trans below).ne fixed.symm

/-- A square that can be factored is eliminated in all its columns. -/
theorem eliminated_of_factor {A : Square ℝ n} {E : Elimination ℝ n} (made : factor A = some E) :
    Eliminated A n E :=
  Square.columns_invariant (Eliminated A) (fun _ _ _ kept step => kept.step step)
    (eliminated_start A) made

/-- A column is refused where nothing but small entries are left in it. -/
theorem step_eq_none_iff (E : Elimination ℝ n) (column : Fin n) :
    step E column = none ↔ ∀ i, column ≤ i → |E.cells i column| < pivotFloor := by
  have refused : step E column = none ↔ |E.cells (pivotRow E.cells column) column| < pivotFloor := by
    simp [step]
  rw [refused]
  constructor
  · intro small i below
    exact (abs_le_pivotRow E.cells below).trans_lt small
  · intro small
    exact small _ (le_pivotRow E.cells column)

/-- A square that cannot be factored has, eliminated up to some column, nothing but small entries left
in that column. -/
theorem small_column_of_factor {A : Square ℝ n} (refused : factor A = none) :
    ∃ (column : Fin n) (E : Elimination ℝ n), Eliminated A column E ∧
      ∀ i, column ≤ i → |E.cells i column| < pivotFloor := by
  rcases Square.columns_cases (Eliminated A) (fun _ _ _ kept step => kept.step step)
    (eliminated_start A) with ⟨E, found, _⟩ | ⟨_, column, E, kept, stopped⟩
  · cases refused.symm.trans found
  · exact ⟨column, E, kept, (step_eq_none_iff E column).mp stopped⟩

/-- The rows of the eliminated columns, and under them those of the identity. -/
noncomputable def finished (M : Square ℝ n) (k : Nat) : Matrix (Fin n) (Fin n) ℝ :=
  Matrix.of fun l j => if l.val < k then upperPart M k l j else if l = j then 1 else 0

theorem det_finished {M : Square ℝ n} {k : Nat} (pivots : ∀ l : Fin n, l.val < k → M l l ≠ 0) :
    (finished M k).det ≠ 0 := by
  have triangle : (finished M k).IsUpperTriangular := by
    intro l j less
    have front : j < l := less
    by_cases within : l.val < k
    · have both : j.val < k := lt_trans front within
      simp [finished, upperPart, within, front, both]
    · simp [finished, within, front.ne']
  rw [Matrix.det_of_isUpperTriangular triangle]
  refine Finset.prod_ne_zero_iff.mpr fun l _ => ?_
  by_cases within : l.val < k
  · simpa [finished, upperPart, within] using pivots l within
  · simp [finished, within]

/-- Over a column that is not eliminated yet some vector, with a one at the column, is taken to what is left of
the column. -/
theorem Eliminated.exists_left {A : Square ℝ n} {E : Elimination ℝ n} {column : Fin n}
    (kept : Eliminated A column E) :
    ∃ z : Fin n → ℝ, z column = 1 ∧
      (upperPart E.cells column).mulVec z = fun l => if column ≤ l then E.cells l column else 0 := by
  have positive : (0 : ℝ) < pivotFloor := by norm_num [pivotFloor]
  have pivots : ∀ l : Fin n, l.val < column.val → E.cells l l ≠ 0 :=
    fun l within => abs_pos.mp (positive.trans_le (kept.pivots l within))
  obtain ⟨z, settled⟩ := Matrix.mulVec_surjective_iff_isUnit.mpr
    ((Matrix.isUnit_iff_isUnit_det _).mpr (det_finished pivots).isUnit) (Pi.single column 1)
  have behind : ∀ l, column ≤ l → z l = Pi.single (M := fun _ => ℝ) column 1 l := by
    intro l beyond
    have row := congrFun settled l
    simpa [finished, Matrix.mulVec, dotProduct, not_lt.mpr beyond] using row
  have one : z column = 1 := by rw [behind column le_rfl, Pi.single_eq_same]
  refine ⟨z, one, funext fun l => ?_⟩
  split
  · rename_i beyond
    rw [Matrix.mulVec, dotProduct, Finset.sum_eq_single column (fun j _ other => ?_) (by simp), one, mul_one]
    · simp [upperPart]
    · rcases lt_or_ge j column with front | later
      · simp [upperPart, front, front.trans_le beyond]
      · rw [behind j later, Pi.single_eq_of_ne other, mul_zero]
  · rename_i front
    have within : l < column := not_le.mp front
    have row := congrFun settled l
    rw [Pi.single_eq_of_ne within.ne] at row
    simpa [finished, Matrix.mulVec, dotProduct, within] using row

/-- A square that cannot be factored is nearly singular: it takes some vector with a coordinate of one to nothing
but small entries. -/
theorem small_image_of_factor {A : Square ℝ n} (refused : factor A = none) :
    ∃ (z : Fin n → ℝ) (k : Fin n), z k = 1 ∧ ∀ i, |A.matrix.mulVec z i| < pivotFloor := by
  obtain ⟨k, E, kept, small⟩ := small_column_of_factor refused
  obtain ⟨z, one, left⟩ := kept.exists_left
  refine ⟨z, k, one, fun i => ?_⟩
  obtain ⟨place, rfl⟩ := Finite.injective_iff_surjective.mp kept.permuted i
  have entry : A.matrix.mulVec z (E.order.get place) = if k ≤ place then E.cells place k else 0 := by
    calc A.matrix.mulVec z (E.order.get place)
        = (A.matrix.submatrix E.order.get id).mulVec z place := rfl
      _ = (lowerPart E.cells k).mulVec ((upperPart E.cells k).mulVec z) place := by
          rw [← kept.product, Matrix.mulVec_mulVec]
      _ = (upperPart E.cells k).mulVec z place := by
          rw [lowerPart_mulVec_of_late E.cells fun l front => left ▸ if_neg (not_le.mpr front)]
      _ = if k ≤ place then E.cells place k else 0 := congrFun left place
  rw [entry]
  split
  · rename_i beyond
    exact small place beyond
  · rw [abs_zero]
    norm_num [pivotFloor]

/-- The first row is some row of the square, however many columns are eliminated. -/
theorem Eliminated.top_eq {A : Square ℝ (n + 1)} {k : Nat} {E : Elimination ℝ (n + 1)}
    (kept : Eliminated A k E) : E.cells 0 0 = A (E.order.get 0) 0 := by
  have entry := congrFun (congrFun kept.product 0) 0
  rw [Matrix.mul_apply, Finset.sum_eq_single 0 (fun l _ other => ?_) (by simp)] at entry
  · simpa [lowerPart, upperPart, Square.matrix] using entry
  · simp [lowerPart, other.symm]

/-- One equation is factored where its coefficient is clear of zero. -/
theorem factor_of_one {A : Square ℝ 1} (clear : pivotFloor ≤ |A 0 0|) : ∃ E, factor A = some E := by
  refine Option.ne_none_iff_exists'.mp fun refused => ?_
  obtain ⟨column, E, kept, small⟩ := small_column_of_factor refused
  have below := small column le_rfl
  rw [Fin.eq_zero column, kept.top_eq, Fin.eq_zero (E.order.get 0)] at below
  exact absurd below (not_lt.mpr clear)

/-- Two equations are factored where the first unknown has coefficients of absolute value one and the
determinant is clear of zero. -/
theorem factor_of_two {A : Square ℝ 2} (unit : ∀ i, |A i 0| = 1) (regular : pivotFloor ≤ |A.matrix.det|) :
    ∃ E, factor A = some E := by
  refine Option.ne_none_iff_exists'.mp fun refused => ?_
  obtain ⟨column, E, kept, small⟩ := small_column_of_factor refused
  have first : |E.cells 0 0| = 1 := kept.top_eq ▸ unit _
  rcases Fin.exists_fin_two.mp ⟨column, rfl⟩ with rfl | rfl
  · have below := small 0 le_rfl
    rw [first] at below
    norm_num [pivotFloor] at below
  · -- Up to its sign the determinant is the product of the two pivots.
    have permuted : |(A.matrix.submatrix E.order.get id).det| = |A.matrix.det| := by
      rw [kept.det_rows, abs_mul, ← Int.cast_abs]
      simp
    have factors : |(lowerPart E.cells 1 * upperPart E.cells 1).det| = |E.cells 1 1| := by
      rw [Matrix.det_mul, Matrix.det_fin_two, Matrix.det_fin_two]
      simp [lowerPart, upperPart, abs_mul, first]
    have product : |E.cells 1 1| = |A.matrix.det| :=
      factors.symm.trans ((congrArg (fun M => |M.det|) kept.product).trans permuted)
    exact absurd (small 1 le_rfl) (product ▸ not_lt.mpr regular)

end Elimination

end Downhill
