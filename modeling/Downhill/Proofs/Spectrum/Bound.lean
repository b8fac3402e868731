import Mathlib
import Downhill.Proofs.Elimination.Solution
import Downhill.Proofs.Spectrum.Rotation

namespace Downhill

namespace Square

variable {n : Nat}

theorem sum_above (f : Fin n → Fin n → ℝ) :
    ((above n).map fun place => f place.1 place.2).sum = ∑ i, ∑ j, if i < j then f i j else 0 := by
  rw [above, List.map_flatMap, List.flatMap_def, List.sum_flatten, List.map_map, ← List.ofFn_eq_map, List.sum_ofFn]
  refine Finset.sum_congr rfl fun i _ => ?_
  rw [← sum_after, Function.comp_apply, List.map_map]
  rfl

theorem sum_symmetric {f : Fin n → Fin n → ℝ} (symmetric : ∀ i j, f i j = f j i) :
    ∑ i, ∑ j, f i j = (∑ i, f i i) + 2 * ∑ i, ∑ j, if i < j then f i j else 0 := by
  have parts : ∀ i j, f i j = (if i = j then f i j else 0) + (if i < j then f i j else 0) +
      if j < i then f i j else 0 := by
    intro i j
    rcases lt_trichotomy i j with above | rfl | below
    · simp [above, above.ne, above.not_gt]
    · simp
    · simp [below, below.ne', below.not_gt]
  have mirrored : (∑ i, ∑ j, if j < i then f i j else 0) = ∑ i, ∑ j, if i < j then f i j else 0 := by
    rw [Finset.sum_comm]
    simp only [symmetric]
  have diagonal : (∑ i, ∑ j, if i = j then f i j else 0) = ∑ i, f i i := by simp
  calc ∑ i, ∑ j, f i j
      = (∑ i, ∑ j, if i = j then f i j else 0) + (∑ i, ∑ j, if i < j then f i j else 0) +
          ∑ i, ∑ j, if j < i then f i j else 0 := by
        simp only [← Finset.sum_add_distrib, ← parts]
    _ = _ := by rw [mirrored, diagonal]; ring

theorem form_eq (A : Square ℝ n) (y : Fin n → ℝ) :
    y ⬝ᵥ A.matrix.mulVec y = ∑ i, ∑ j, A i j * (y i * y j) := by
  simp only [dotProduct, Matrix.mulVec, Finset.mul_sum]
  exact Finset.sum_congr rfl fun i _ => Finset.sum_congr rfl fun j _ => mul_left_comm _ _ _

end Square

namespace Spectrum

variable {n : Nat}

theorem offDiagonal_nonneg (A : Square ℝ n) : 0 ≤ offDiagonal A :=
  Real.sqrt_nonneg _

theorem offDiagonal_sq (A : Square ℝ n) :
    offDiagonal A ^ 2 = ∑ i, ∑ j, if i < j then A i j ^ 2 else 0 := by
  have nonneg : 0 ≤ ∑ i, ∑ j, if i < j then A i j * A i j else 0 :=
    Finset.sum_nonneg fun i _ => Finset.sum_nonneg fun j _ => by
      split
      · exact mul_self_nonneg _
      · exact le_rfl
  rw [offDiagonal, Scalar.sqrt_exact, Scalar.total_exact, Square.sum_above (fun i j => A i j * A i j),
    Real.sq_sqrt nonneg]
  simp only [sq]

/-- The terms off the diagonal of a quadratic form, each counted once. -/
theorem sq_mixed_le (A : Square ℝ n) (y : Fin n → ℝ) :
    (∑ i, ∑ j, if i < j then A i j * (y i * y j) else 0) ^ 2 ≤
      offDiagonal A ^ 2 * ∑ i, ∑ j, if i < j then (y i * y j) ^ 2 else 0 := by
  have bound := Finset.sum_mul_sq_le_sq_mul_sq ((Finset.univ : Finset (Fin n × Fin n)).filter
    fun place => place.1 < place.2) (fun place => A place.1 place.2) fun place => y place.1 * y place.2
  simpa only [offDiagonal_sq, Finset.sum_filter, ← Finset.univ_product_univ, Finset.sum_product] using bound

/-- A symmetric form lies below its smallest diagonal entry by at most what is above the diagonal. -/
theorem form_ge_of_diagonal {A : Square ℝ n} (symmetric : A.matrix.IsSymm) {low : ℝ}
    (diagonal : ∀ i, low ≤ A i i) (y : Fin n → ℝ) :
    (low - √2 * offDiagonal A) * (y ⬝ᵥ y) ≤ y ⬝ᵥ A.matrix.mulVec y := by
  let mixed := ∑ i, ∑ j, if i < j then A i j * (y i * y j) else 0
  let pairs := ∑ i, ∑ j, if i < j then (y i * y j) ^ 2 else 0
  have length : 0 ≤ y ⬝ᵥ y := dotProduct_self_star_nonneg y
  have form : y ⬝ᵥ A.matrix.mulVec y = (∑ i, A i i * (y i * y i)) + 2 * mixed := by
    rw [Square.form_eq]
    refine Square.sum_symmetric fun i j => ?_
    rw [mul_comm (y i), show A i j = A j i from symmetric.apply j i]
  have square : (y ⬝ᵥ y) ^ 2 = (∑ i, (y i * y i) ^ 2) + 2 * pairs := by
    calc (y ⬝ᵥ y) ^ 2 = ∑ i, ∑ j, (y i * y j) ^ 2 := by
          rw [sq, dotProduct, Finset.sum_mul_sum]
          exact Finset.sum_congr rfl fun i _ => Finset.sum_congr rfl fun j _ => by ring
      _ = (∑ i, (y i * y i) ^ 2) + 2 * pairs :=
        Square.sum_symmetric fun i j => by rw [mul_comm (y i)]
  -- Each pair counts twice in the square of the length, which is where the root of two comes from.
  have twice : 2 * pairs ≤ (y ⬝ᵥ y) ^ 2 := by
    rw [square]
    exact le_add_of_nonneg_left (Finset.sum_nonneg fun i _ => sq_nonneg _)
  have lower : -(√2 * offDiagonal A * (y ⬝ᵥ y)) ≤ 2 * mixed := by
    refine (abs_le_of_sq_le_sq' ?_ (by have := offDiagonal_nonneg A; positivity)).1
    calc (2 * mixed) ^ 2 = 4 * mixed ^ 2 := by ring
      _ ≤ 4 * (offDiagonal A ^ 2 * pairs) := by gcongr; exact sq_mixed_le A y
      _ = 2 * offDiagonal A ^ 2 * (2 * pairs) := by ring
      _ ≤ 2 * offDiagonal A ^ 2 * (y ⬝ᵥ y) ^ 2 := by gcongr
      _ = (√2 * offDiagonal A * (y ⬝ᵥ y)) ^ 2 := by rw [mul_pow, mul_pow, Real.sq_sqrt zero_le_two]
  have straight : low * (y ⬝ᵥ y) ≤ ∑ i, A i i * (y i * y i) := by
    rw [dotProduct, Finset.mul_sum]
    exact Finset.sum_le_sum fun i _ => mul_le_mul_of_nonneg_right (diagonal i) (mul_self_nonneg _)
  rw [form]
  linarith

theorem foldl_lesser {next : Option ℝ → ℝ → Option ℝ} (lesser : ∀ low v, next (some low) v = some (min low v))
    (v : ℝ) (values : List ℝ) : ∃ low, values.foldl next (some v) = some low ∧ low ∈ v :: values ∧
      ∀ w ∈ v :: values, low ≤ w := by
  induction values generalizing v with
  | nil => simp
  | cons first rest ih =>
    obtain ⟨low, found, among, below⟩ := ih (min v first)
    have start : low ≤ min v first := below _ List.mem_cons_self
    refine ⟨low, by rwa [List.foldl_cons, lesser], ?_, fun w member => ?_⟩
    · rcases List.mem_cons.mp among with rfl | later
      · rcases min_choice v first with same | same <;> simp [same]
      · exact List.mem_cons_of_mem v (List.mem_cons_of_mem first later)
    · rcases List.mem_cons.mp member with rfl | others
      · exact start.trans (min_le_left _ _)
      · rcases List.mem_cons.mp others with rfl | later
        · exact start.trans (min_le_right _ _)
        · exact below w (List.mem_cons_of_mem _ later)

/-- Over the exact numbers the least value is there as soon as there is a value, and is one. -/
theorem least_spec {spectrum : Spectrum ℝ} (nonempty : spectrum.values.toList ≠ []) :
    ∃ low, spectrum.least = .some low ∧ low ∈ spectrum.values.toList ∧
      ∀ v ∈ spectrum.values.toList, low ≤ v := by
  unfold least
  obtain ⟨v, values, same⟩ := List.exists_cons_of_ne_nil nonempty
  rw [same, List.foldl_cons]
  dsimp only
  rw [if_pos le_rfl]
  exact foldl_lesser (fun low v => congrArg Option.some (Scalar.lesser_exact low v)) v values

theorem magnitude_eq (A : Square ℝ n) :
    magnitude A = max Scalar.smallestNormal (√(∑ i, ∑ j, A i j ^ 2)) := by
  rw [magnitude, Scalar.atLeast_exact, Scalar.sqrt_exact, Scalar.total_exact, List.flatMap_def, List.sum_flatten,
    List.map_map, ← List.ofFn_eq_map, List.sum_ofFn]
  simp only [Function.comp_apply, ← List.ofFn_eq_map, List.sum_ofFn, sq]

/-- Where the sweeps have settled, the quadratic form is nowhere below the least value by more than
what they were allowed to leave. -/
theorem form_ge_of_settled {A : Square ℝ n} (symmetric : A.matrix.IsSymm)
    (settled : (ofSquare A).settled = true) {low : ℝ} (least : ∀ v ∈ (ofSquare A).values.toList, low ≤ v)
    (x : Fin n → ℝ) :
    (low - √2 * (1e-14 * magnitude A)) * (x ⬝ᵥ x) ≤ x ⬝ᵥ A.matrix.mulVec x := by
  let B := (diagonalize (1e-14 * magnitude A) maxSweeps A).1
  have similar : A.Similar B := similar_diagonalize _ _ A
  have rest : offDiagonal B ≤ 1e-14 * magnitude A := offDiagonal_le_of_settled settled
  have diagonal : ∀ i, low ≤ B i i := by
    have entries := (Coords.forall_mem_iff (x := B.diagonal) (Coords.size_ofFn _)).mp least
    rwa [Square.diagonal, Coords.vec_ofFn] at entries
  refine similar.form_ge (fun y => ?_) x
  have length : 0 ≤ y ⬝ᵥ y := dotProduct_self_star_nonneg y
  calc (low - √2 * (1e-14 * magnitude A)) * (y ⬝ᵥ y) ≤ (low - √2 * offDiagonal B) * (y ⬝ᵥ y) := by gcongr
    _ ≤ y ⬝ᵥ B.matrix.mulVec y := form_ge_of_diagonal (similar.isSymm symmetric) diagonal y

/-- Nothing has to be swept where nothing is off the diagonal. -/
theorem settled_of_diagonal {A : Square ℝ n} (diagonal : ∀ i j, i < j → A i j = 0) :
    (ofSquare A).settled = true := by
  have zero : offDiagonal A = 0 := by
    refine pow_eq_zero_iff two_ne_zero |>.mp ((offDiagonal_sq A).trans ?_)
    refine Finset.sum_eq_zero fun i _ => Finset.sum_eq_zero fun j _ => ?_
    split
    · rename_i above
      rw [diagonal i j above, zero_pow two_ne_zero]
    · rfl
  have nonneg : 0 ≤ magnitude A := magnitude_eq A ▸ le_max_of_le_right (Real.sqrt_nonneg _)
  change (diagonalize (1e-14 * magnitude A) (99 + 1) A).2 = true
  rw [diagonalize, if_pos (zero ▸ by positivity)]

end Spectrum

/-- A symmetric table has the spectrum of its square. -/
theorem Table.spectrum_of_isSymm {A : Table ℝ} (square : A.width = A.height)
    (symmetric : (A.mat A.height A.height).IsSymm) : A.spectrum = .ok (.ofSquare (A.toSquare square)) := by
  rw [spectrum, symmetrize_of_isSymm rfl square symmetric]
  exact dif_pos square

theorem Table.settled_of_diagonal {A : Table ℝ} {n : Nat} {spectrum : Spectrum ℝ} (high : A.height = n)
    (wide : A.width = n) (diagonal : ∀ i j, i ≠ j → A.mat n n i j = 0) (found : A.spectrum = .ok spectrum) :
    spectrum.settled = true := by
  subst high
  have symmetric : (A.mat A.height A.height).IsSymm := by
    refine Matrix.IsSymm.ext fun i j => ?_
    by_cases same : i = j
    · rw [same]
    · rw [diagonal i j same, diagonal j i (Ne.symm same)]
  obtain rfl := Except.ok.inj ((spectrum_of_isSymm wide symmetric).symm.trans found)
  refine Spectrum.settled_of_diagonal fun i j above => ?_
  exact (congrFun (congrFun (A.matrix_toSquare wide) i) j).trans (diagonal i j above.ne)

theorem Scalar.smallestNormal_le_one : (Scalar.smallestNormal : ℝ) ≤ 1 :=
  (one_div _).trans_le (Nat.cast_inv_le_one _)

end Downhill
