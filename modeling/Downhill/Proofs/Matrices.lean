import Downhill.Proofs.Vectors
import Downhill.Square

namespace Downhill

namespace Table

/-- The entries as a matrix with `m` rows and `n` columns, continued by zeros. -/
noncomputable def mat (A : Table ℝ) (m n : Nat) : Matrix (Fin m) (Fin n) ℝ :=
  Matrix.of fun i => (A.rows[i.val]?.getD (Coords.zeros 0)).vec n

theorem mat_of_row {A : Table ℝ} {m n : Nat} {i : Fin m} {r : Coords ℝ} (place : A.rows[i.val]? = some r) :
    A.mat m n i = r.vec n := by
  change (A.rows[i.val]?.getD (Coords.zeros 0)).vec n = _
  rw [place, Option.getD_some]

theorem mat_row {A : Table ℝ} {m n : Nat} {i : Fin m} (high : i.val < A.height) :
    A.mat m n i = (A.row ⟨i.val, high⟩).vec n :=
  have within : i.val < A.rows.size := high
  mat_of_row (Array.getElem?_eq_getElem within)

theorem mat_entry {A : Table ℝ} {m n : Nat} {i : Fin m} {j : Fin n} (high : i.val < A.height)
    (wide : j.val < A.width) : A.mat m n i j = A.entry ⟨i.val, high⟩ ⟨j.val, wide⟩ := by
  rw [mat_row high, Coords.vec_of_lt ((A.size_row _).symm ▸ wide)]
  rfl

/-- Tables of one shape are equal when their matrices are. -/
theorem eq_of_mat {A B : Table ℝ} {m n : Nat} (high : A.height = m) (wide : A.width = n)
    (sameHeight : B.height = m) (sameWidth : B.width = n) (same : A.mat m n = B.mat m n) : A = B := by
  refine Table.ext (wide.trans sameWidth.symm) (Array.ext (high.trans sameHeight.symm) fun i first second => ?_)
  have inside : i < m := high ▸ first
  have rows := congrFun same ⟨i, inside⟩
  rw [mat_row (i := ⟨i, inside⟩) first, mat_row (i := ⟨i, inside⟩) second] at rows
  exact Coords.eq_of_vec ((A.size_row ⟨i, first⟩).trans wide) ((B.size_row ⟨i, second⟩).trans sameWidth) rows

@[simp]
theorem entry_ofFn {m n : Nat} (f : Fin m → Fin n → ℝ) (i : Fin m) (j : Fin n) :
    (ofFn m n f).entry (i.cast (height_ofFn m n f).symm) j = f i j := by
  have rows : (ofFn m n f).row (i.cast (height_ofFn m n f).symm) = Coords.ofFn (f i) := by
    simp [row, ofFn, Fin.cast]
  have value : (Coords.ofFn (f i)).vec n j = f i j := congrFun (Coords.vec_ofFn (f i)) j
  rw [← rows, Coords.vec_of_lt ((size_row _ _).symm ▸ j.isLt)] at value
  exact value

theorem mat_ofFn {m n : Nat} (f : Fin m → Fin n → ℝ) : (ofFn m n f).mat m n = Matrix.of f := by
  ext i j
  rw [mat_entry ((height_ofFn m n f).symm ▸ i.isLt) j.isLt]
  exact entry_ofFn f i j

@[simp]
theorem height_identity {α : Type} [Scalar α] (n : Nat) : (identity n : Table α).height = n :=
  height_ofFn n n _

@[simp]
theorem width_identity {α : Type} [Scalar α] (n : Nat) : (identity n : Table α).width = n :=
  rfl

@[simp]
theorem mat_identity (n : Nat) : (identity n : Table ℝ).mat n n = 1 := by
  rw [identity, mat_ofFn]
  ext i j
  rw [Matrix.of_apply, Matrix.one_apply]

@[simp]
theorem height_transpose {α : Type} (A : Table α) : A.transpose.height = A.width :=
  height_ofFn _ _ _

theorem mat_transpose {A : Table ℝ} {m n : Nat} (high : A.height = m) (wide : A.width = n) :
    A.transpose.mat n m = (A.mat m n).transpose := by
  subst high wide
  rw [transpose, mat_ofFn]
  ext j i
  exact (mat_entry i.isLt j.isLt).symm

@[simp]
theorem height_zeros {α : Type} [Scalar α] (m n : Nat) : (zeros m n : Table α).height = m :=
  height_ofFn m n _

@[simp]
theorem width_zeros {α : Type} [Scalar α] (m n : Nat) : (zeros m n : Table α).width = n :=
  rfl

@[simp]
theorem mat_zeros (m n : Nat) : (zeros m n : Table ℝ).mat m n = 0 := by
  rw [zeros, mat_ofFn]
  rfl

/-- Rows are a table where they have its width. -/
theorem ofRows_eq_ok {α : Type} {width : Nat} {rows : Array (Coords α)} {A : Table α} :
    ofRows width rows = .ok A ↔ A.width = width ∧ A.rows = rows := by
  constructor
  · intro made
    unfold ofRows at made
    split at made
    · cases made
      exact ⟨rfl, rfl⟩
    · cases made
  · rintro ⟨rfl, rfl⟩
    rw [ofRows, dif_pos A.row_size]

theorem ofRows_ofFn {α : Type} {m n : Nat} (f : Fin m → Fin n → α) :
    ofRows n ((List.finRange m).map fun i => Coords.ofFn (f i)).toArray = .ok (ofFn m n f) := by
  refine ofRows_eq_ok.mpr ⟨rfl, ?_⟩
  rw [← List.ofFn_eq_map, List.toArray_ofFn]
  rfl

theorem height_select {α : Type} (A : Table α) (positions : List (Fin A.height)) :
    (A.select positions).height = positions.length := by
  change (positions.map A.row).toArray.size = positions.length
  rw [List.size_toArray, List.length_map]

theorem mat_select (A : Table ℝ) (positions : List (Fin A.height)) (n : Nat)
    (k : Fin (A.select positions).height) : (A.select positions).mat (A.select positions).height n k =
      A.mat A.height n (positions.get (k.cast (A.height_select positions))) := by
  rw [mat_row k.isLt, mat_row (positions.get (k.cast (A.height_select positions))).isLt]
  simp only [row, select, Fin.getElem_fin, List.getElem_toArray, List.getElem_map]
  rfl

/-- Tables of one shape add up to a table of that shape. -/
theorem add_ok {A B : Table ℝ} {m n : Nat} (high : A.height = m) (wide : A.width = n)
    (sameHeight : B.height = m) (sameWidth : B.width = n) :
    ∃ C, A.add B = .ok C ∧ C.height = m ∧ C.width = n ∧ C.mat m n = A.mat m n + B.mat m n := by
  subst high wide
  refine ⟨_, by rw [add, combine, dif_pos sameHeight, dif_pos sameWidth], height_ofFn _ _ _, rfl, ?_⟩
  rw [mat_ofFn]
  ext i j
  rw [Matrix.of_apply, Matrix.add_apply, mat_entry i.isLt j.isLt,
    mat_entry (i.isLt.trans_eq sameHeight.symm) (j.isLt.trans_eq sameWidth.symm)]
  rfl

theorem mat_scale {A : Table ℝ} {m n : Nat} (high : A.height = m) (wide : A.width = n) (t : ℝ) :
    (A.scale t).mat m n = t • A.mat m n := by
  subst high wide
  rw [scale, mat_ofFn]
  ext i j
  rw [Matrix.of_apply, Matrix.smul_apply, mat_entry i.isLt j.isLt, smul_eq_mul, mul_comm]

/-- A multiple of the identity. -/
theorem scale_identity (n : Nat) (t : ℝ) : ((identity n).scale t : Table ℝ).height = n ∧
    ((identity n).scale t : Table ℝ).width = n ∧ ((identity n).scale t : Table ℝ).mat n n = t • 1 := by
  refine ⟨(height_ofFn _ _ _).trans (height_identity n), rfl, ?_⟩
  rw [mat_scale (height_identity n) (width_identity n), mat_identity]

/-- Every square table has a mean with its transpose. -/
theorem symmetrize_ok {A : Table ℝ} {n : Nat} (high : A.height = n) (wide : A.width = n) :
    ∃ C, A.symmetrize = .ok C ∧ C.height = n ∧ C.width = n ∧
      C.mat n n = (0.5 : ℝ) • (A.mat n n + (A.mat n n).transpose) := by
  obtain ⟨double, added, tall, broad, sum⟩ := add_ok high wide (A.height_transpose.trans wide)
    ((width_ofFn _ _ _).trans high)
  refine ⟨double.scale 0.5, ?_, (height_ofFn _ _ _).trans tall, broad, ?_⟩
  · rw [symmetrize, added]
    rfl
  · rw [mat_scale tall broad, sum, mat_transpose high wide]

/-- Only a square table has a mean with its transpose, and that is symmetric. -/
theorem symmetrize_eq_ok {A C : Table ℝ} (made : A.symmetrize = .ok C) :
    A.width = A.height ∧ C.height = A.height ∧ C.width = A.height ∧ (C.mat A.height A.height).IsSymm := by
  have square : A.width = A.height := by
    by_contra apart
    have tall : A.transpose.height ≠ A.height := by rwa [height_transpose]
    rw [symmetrize, add, combine, dif_neg tall] at made
    cases made
  obtain ⟨D, found, high, wide, mean⟩ := symmetrize_ok rfl square
  obtain rfl := Except.ok.inj (found.symm.trans made)
  refine ⟨square, high, wide, ?_⟩
  rw [mean]
  exact (Matrix.isSymm_add_transpose_self _).smul _

theorem mean_of_isSymm {n : Nat} {D : Matrix (Fin n) (Fin n) ℝ} (symmetric : D.IsSymm) :
    (0.5 : ℝ) • (D + D.transpose) = D := by
  rw [symmetric.eq, ← two_smul ℝ, smul_smul]
  norm_num

/-- A symmetric table is its own mean. -/
theorem symmetrize_of_isSymm {A : Table ℝ} {n : Nat} (high : A.height = n) (wide : A.width = n)
    (symmetric : (A.mat n n).IsSymm) : A.symmetrize = .ok A := by
  obtain ⟨C, made, tall, broad, mean⟩ := symmetrize_ok high wide
  have same : C.mat n n = A.mat n n := mean.trans (mean_of_isSymm symmetric)
  exact made.trans (congrArg Except.ok (eq_of_mat tall broad high wide same))

/-- The product of fitting tables is that of their matrices. -/
theorem mul_ok {A B : Table ℝ} {m n k : Nat} (high : A.height = m) (wide : A.width = n)
    (fits : B.height = n) (across : B.width = k) :
    ∃ C, A.mul B = .ok C ∧ C.height = m ∧ C.width = k ∧ C.mat m k = A.mat m n * B.mat n k := by
  subst high wide across
  refine ⟨_, by rw [mul, dif_pos fits.symm], height_ofFn _ _ _, rfl, ?_⟩
  rw [mat_ofFn]
  ext i j
  rw [Matrix.of_apply, Matrix.mul_apply, Scalar.total_exact, ← List.ofFn_eq_map, List.sum_ofFn]
  refine Finset.sum_congr rfl fun l _ => ?_
  rw [mat_entry i.isLt l.isLt, mat_entry (l.isLt.trans_eq fits.symm) j.isLt]
  rfl

theorem mat_mul {A B C : Table ℝ} (product : A.mul B = .ok C) :
    B.height = A.width ∧ C.height = A.height ∧ C.width = B.width ∧
      C.mat A.height B.width = A.mat A.height A.width * B.mat A.width B.width := by
  by_cases fits : A.width = B.height
  · obtain ⟨other, made, shape⟩ := mul_ok (A := A) (B := B) rfl rfl fits.symm rfl
    cases product.symm.trans made
    exact ⟨fits.symm, shape⟩
  · rw [mul, dif_neg fits] at product
    cases product

/-- A table times a column is its matrix times the vector. -/
theorem vec_apply {A : Table ℝ} {x y : Coords ℝ} {m n : Nat} (made : A.apply x = .ok y)
    (high : A.height = m) (wide : A.width = n) : y.vec m = (A.mat m n).mulVec (x.vec n) := by
  unfold apply at made
  split at made
  · rename_i fits
    cases made
    funext i
    have within : i.val < A.height := high ▸ i.isLt
    have stored : i.val < A.rows.size := within
    have rowSize : (A.row ⟨i.val, within⟩).size ≤ n := by rw [A.size_row, wide]
    have entry : i.val < (A.rows.map (·.pairing x)).size := by simpa using stored
    rw [Coords.vec_of_lt (x := ⟨A.rows.map (·.pairing x)⟩) entry, Matrix.mulVec, mat_row within,
      ← Coords.pairing_eq rowSize]
    exact Array.getElem_map ..
  · cases made

theorem size_apply {α : Type} [Scalar α] {A : Table α} {x y : Coords α} (made : A.apply x = .ok y) :
    A.width = x.size ∧ y.size = A.height := by
  unfold apply at made
  split at made
  · rename_i fits
    cases made
    exact ⟨fits, Array.size_map⟩
  · cases made

theorem apply_ok {α : Type} [Scalar α] {A : Table α} {x : Coords α} (fits : A.width = x.size) :
    ∃ y, A.apply x = .ok y ∧ y.size = A.height :=
  ⟨_, if_pos fits, Array.size_map⟩

/-- Being the product is an equation between vectors. -/
theorem apply_eq_ok_iff {A : Table ℝ} {x y : Coords ℝ} {m n : Nat} (high : A.height = m)
    (wide : A.width = n) :
    A.apply x = .ok y ↔ x.size = n ∧ y.size = m ∧ (A.mat m n).mulVec (x.vec n) = y.vec m := by
  constructor
  · intro made
    obtain ⟨fits, size⟩ := size_apply made
    exact ⟨fits.symm.trans wide, size.trans high, (vec_apply made high wide).symm⟩
  · rintro ⟨fits, size, product⟩
    obtain ⟨z, made⟩ : ∃ z, A.apply x = .ok z := ⟨_, if_pos (wide.trans fits.symm)⟩
    have same : z = y := Coords.eq_of_vec ((size_apply made).2.trans high) size
      ((vec_apply made high wide).trans product)
    exact same ▸ made

/-- A product is applied one factor after the other, and what does not fit is the same fault. -/
theorem apply_mul {A B C : Table ℝ} (product : A.mul B = .ok C) (x : Coords ℝ) :
    (do A.apply (← B.apply x)) = C.apply x := by
  obtain ⟨fits, high, wide, value⟩ := mat_mul product
  by_cases size : B.width = x.size
  · obtain ⟨y, first, ySize⟩ := apply_ok size
    obtain ⟨z, second, zSize⟩ := apply_ok (A := A) (fits.symm.trans ySize.symm)
    have whole : C.apply x = .ok z := by
      refine (apply_eq_ok_iff high wide).mpr ⟨size.symm, zSize, ?_⟩
      rw [value, ← Matrix.mulVec_mulVec, ← vec_apply first fits rfl, vec_apply second rfl rfl]
    simp only [first, second, whole, bind, Except.bind]
  · simp only [apply, wide, if_neg size, bind, Except.bind]

theorem combineRows_ok {α : Type} [Scalar α] {A : Table α} {w : Coords α} (fits : w.size = A.height) :
    ∃ y, A.combineRows w = .ok y ∧ y.size = A.width := by
  obtain ⟨y, made, size⟩ : ∃ y, A.transpose.apply w = .ok y ∧ y.size = A.transpose.height := apply_ok fits.symm
  exact ⟨y, made, size.trans A.height_transpose⟩

theorem transpose_mul {A B C : Table ℝ} (product : A.mul B = .ok C) :
    B.transpose.mul A.transpose = .ok C.transpose := by
  obtain ⟨fits, high, wide, value⟩ := mat_mul product
  obtain ⟨D, made, dHigh, dWide, turned⟩ := mul_ok (A := B.transpose) (B := A.transpose) B.height_transpose
    ((width_ofFn _ _ _).trans fits) A.height_transpose (width_ofFn _ _ _)
  have same : D = C.transpose := by
    refine eq_of_mat dHigh dWide (C.height_transpose.trans wide) ((width_ofFn _ _ _).trans high) ?_
    rw [turned, mat_transpose fits rfl, mat_transpose rfl rfl, mat_transpose high wide, value, Matrix.transpose_mul]
  exact same ▸ made

/-- The rows of a product are combined by those of the first factor, and then by those of the second. -/
theorem combineRows_mul {A B C : Table ℝ} (product : A.mul B = .ok C) (w : Coords ℝ) :
    (do B.combineRows (← A.combineRows w)) = C.combineRows w :=
  apply_mul (transpose_mul product) w

/-- The rows combined with weights are the weights times the matrix. -/
theorem vec_combineRows {A : Table ℝ} {w y : Coords ℝ} {m n : Nat}
    (made : A.combineRows w = .ok y) (high : A.height = m) (wide : A.width = n) :
    y.vec n = (A.mat m n).vecMul (w.vec m) := by
  have tall : A.transpose.height = n := A.height_transpose.trans wide
  rw [vec_apply made tall high, mat_transpose high wide, Matrix.mulVec_transpose]

end Table

end Downhill
