import Mathlib
import Downhill.Proofs.Spectrum.Clearing

namespace Downhill

variable {n : Nat} {M : Matrix (Fin n) (Fin n) ℝ} {low : ℝ}

/-- The least eigenvalue of a matrix, which is also the least value of its form on vectors of length one. -/
structure LeastEigenvalue (M : Matrix (Fin n) (Fin n) ℝ) (low : ℝ) : Prop where
  least : IsLeast (spectrum ℝ M) low
  form : IsLeast {v | ∃ x : Fin n → ℝ, x ⬝ᵥ x = 1 ∧ x ⬝ᵥ M.mulVec x = v} low

/-- What is below all eigenvalues bounds the form. -/
theorem form_ge_of_spectrum (symmetric : M.IsSymm) (below : low ∈ lowerBounds (spectrum ℝ M)) (x : Fin n → ℝ) :
    low * (x ⬝ᵥ x) ≤ x ⬝ᵥ M.mulVec x := by
  have hermitian : (-algebraMap ℝ (Matrix (Fin n) (Fin n) ℝ) low + M).IsHermitian := by
    rw [Algebra.algebraMap_eq_smul_one, ← neg_smul]
    exact (Matrix.conjTranspose_eq_transpose_of_trivial _).trans ((Matrix.isSymm_one.smul (-low)).add symmetric).eq
  have lowered : (-algebraMap ℝ (Matrix (Fin n) (Fin n) ℝ) low + M).PosSemidef := by
    refine hermitian.posSemidef_iff_eigenvalues_nonneg.mpr fun i => ?_
    have member := spectrum.add_mem_iff.mpr (hermitian.eigenvalues_mem_spectrum_real i)
    simpa using below member
  have nonneg := lowered.dotProduct_mulVec_nonneg x
  rw [star_trivial, Algebra.algebraMap_eq_smul_one, Matrix.add_mulVec, Matrix.neg_mulVec, Matrix.smul_mulVec,
    Matrix.one_mulVec, dotProduct_add, dotProduct_neg, dotProduct_smul, smul_eq_mul] at nonneg
  linarith

theorem exists_leastEigenvalue (symmetric : M.IsSymm) (nonempty : 0 < n) : ∃ low, LeastEigenvalue M low := by
  have hermitian : M.IsHermitian := (Matrix.conjTranspose_eq_transpose_of_trivial M).trans symmetric.eq
  have place : Nonempty (Fin n) := ⟨⟨0, nonempty⟩⟩
  obtain ⟨i, least⟩ := Finite.exists_min hermitian.eigenvalues
  have first : IsLeast (spectrum ℝ M) (hermitian.eigenvalues i) := by
    rw [hermitian.spectrum_real_eq_range_eigenvalues]
    exact ⟨Set.mem_range_self i, Set.forall_mem_range.mpr least⟩
  let x : Fin n → ℝ := hermitian.eigenvectorBasis i
  have unit : x ⬝ᵥ x = 1 := by
    have length := hermitian.eigenvectorBasis.inner_eq_one i
    rwa [EuclideanSpace.inner_eq_star_dotProduct, star_trivial] at length
  refine ⟨_, first, ⟨x, unit, ?_⟩, ?_⟩
  · rw [hermitian.mulVec_eigenvectorBasis, dotProduct_smul, unit, smul_eq_mul, mul_one]
  · rintro _ ⟨y, length, rfl⟩
    simpa [length] using form_ge_of_spectrum symmetric first.2 y

namespace LeastEigenvalue

/-- Where the form is bounded, so is the least eigenvalue. -/
theorem ge_of_form (least : LeastEigenvalue M low) {bound : ℝ} (form : ∀ x, bound * (x ⬝ᵥ x) ≤ x ⬝ᵥ M.mulVec x) :
    bound ≤ low := by
  obtain ⟨x, unit, value⟩ := least.form.1
  simpa [unit, value] using form x

/-- The same amount on the whole diagonal lifts the least eigenvalue by no more than that. -/
theorem le_add (least : LeastEigenvalue M low) {amount lifted : ℝ}
    (raised : LeastEigenvalue (M + amount • (1 : Matrix (Fin n) (Fin n) ℝ)) lifted) : lifted ≤ low + amount := by
  obtain ⟨x, unit, value⟩ := least.form.1
  refine raised.form.2 ⟨x, unit, ?_⟩
  rw [Matrix.add_mulVec, dotProduct_add, value, Matrix.smul_mulVec, Matrix.one_mulVec, dotProduct_smul, unit,
    smul_eq_mul, mul_one]

/-- No entry on the diagonal is below the least eigenvalue, from whatever axes it is seen. -/
theorem le_diagonal {A B : Square ℝ n} (least : LeastEigenvalue A.matrix low) (symmetric : A.matrix.IsSymm)
    (similar : A.Similar B) (i : Fin n) : low ≤ B i i := by
  have form := similar.symm.form_ge (form_ge_of_spectrum symmetric least.least.2) (Pi.single i 1)
  simpa [Square.matrix] using form

end LeastEigenvalue

namespace Spectrum

variable {S : Square ℝ n}

/-- The values stand on the diagonal of the square that the sweeps end with. -/
theorem values_ofSquare (S : Square ℝ n) : ∃ made ≤ maxSweeps,
    (ofSquare S).values = ((Rotation.visits n made).foldl Rotation.clear S).diagonal := by
  obtain ⟨made, within, last⟩ := Rotation.diagonalize_eq_foldl (1e-14 * magnitude S) maxSweeps S
  exact ⟨made, within, congrArg Square.diagonal last⟩

theorem sum_diagonal (S : Square ℝ n) : S.diagonal.toList.sum = S.matrix.trace := by
  rw [Square.diagonal, Coords.toList, Coords.ofFn, Array.toList_ofFn, List.sum_ofFn]
  rfl

/-- The least value lies between the least eigenvalue and every entry of the diagonal. -/
theorem least_ofSquare (symmetric : S.matrix.IsSymm) (nonempty : 0 < n) :
    ∃ low least, (ofSquare S).least = .some low ∧ (∀ v ∈ (ofSquare S).values.toList, low ≤ v) ∧
    LeastEigenvalue S.matrix least ∧ least ≤ low ∧ ∀ i, low ≤ S i i := by
  obtain ⟨made, _, last⟩ := values_ofSquare S
  have above : ∀ place ∈ Rotation.visits n made, place.1 < place.2 := fun _ => Rotation.above_of_mem_visits
  obtain ⟨least, smallest⟩ := exists_leastEigenvalue symmetric nonempty
  have size : (ofSquare S).values.size = n := Coords.size_ofFn _
  have filled : (ofSquare S).values.toList ≠ [] :=
    List.ne_nil_of_length_pos (nonempty.trans_eq (size.symm.trans Array.length_toList.symm))
  obtain ⟨low, found, among, below⟩ := least_spec filled
  have entries := (Coords.forall_mem_iff (P := fun v => least ≤ v) size).mpr
  have lowest := (Coords.forall_mem_iff (P := fun v => low ≤ v) size).mp below
  rw [last, Square.diagonal, Coords.vec_ofFn] at entries lowest
  refine ⟨low, least, found, below, smallest, ?_, fun i => ?_⟩
  · refine entries (fun i => smallest.le_diagonal symmetric (Rotation.similar_foldl_clear _ above S) i) low ?_
    rwa [last] at among
  · obtain ⟨j, lower⟩ := Rotation.exists_foldl_clear_le _ above symmetric i
    exact (lowest j).trans lower

end Spectrum

namespace Table

variable {A : Table ℝ}

/-- The mean of a table and its transpose. -/
noncomputable def mean (A : Table ℝ) (n : Nat) : Square ℝ n :=
  .ofFn fun i j => 0.5 * (A.mat n n i j + A.mat n n j i)

theorem matrix_mean (A : Table ℝ) (n : Nat) :
    (A.mean n).matrix = (0.5 : ℝ) • (A.mat n n + (A.mat n n).transpose) := by
  ext i j
  change A.mean n i j = _
  rw [mean, Square.entry_ofFn, Matrix.smul_apply, Matrix.add_apply, Matrix.transpose_apply, smul_eq_mul]

theorem isSymm_mean (A : Table ℝ) (n : Nat) : (A.mean n).matrix.IsSymm := by
  rw [matrix_mean]
  refine Matrix.IsSymm.smul ?_ _
  rw [Matrix.IsSymm, Matrix.transpose_add, Matrix.transpose_transpose, add_comm]

theorem trace_mean (A : Table ℝ) (n : Nat) : (A.mean n).matrix.trace = (A.mat n n).trace := by
  rw [matrix_mean, Matrix.trace_smul, Matrix.trace_add, Matrix.trace_transpose, ← two_mul, smul_eq_mul]
  ring

theorem spectrum_eq_mean (high : A.height = n) (wide : A.width = n) : A.spectrum = .ok (.ofSquare (A.mean n)) := by
  obtain ⟨C, made, tall, broad, entries⟩ := symmetrize_ok high wide
  subst tall
  have same : C.toSquare broad = A.mean C.height := by
    refine Square.ext fun i j => congrFun (congrFun (?_ : (C.toSquare broad).matrix = (A.mean C.height).matrix) i) j
    rw [C.matrix_toSquare broad, entries, matrix_mean]
  rw [spectrum, made, ← same]
  exact dif_pos broad

/-- Every rotation keeps the mean of a table and its transpose similar and takes the square of the entry it
clears, exactly, off those above the diagonal. So the values add up to the trace, and the least of them is
near to the least eigenvalue if the sweeps have settled, and never below it. -/
theorem spectrum_by_rotations (high : A.height = n) (wide : A.width = n) (nonempty : 0 < n) :
    (∀ sweeps visited, visited <+: Rotation.visits n sweeps →
      (visited.foldl Rotation.clear (A.mean n)).matrix.IsSymm ∧
        (A.mean n).Similar (visited.foldl Rotation.clear (A.mean n))) ∧
    (∀ M : Square ℝ n, M.matrix.IsSymm → ∀ p q, p < q → Scalar.smallestNormal < |M p q| →
      Rotation.clear M (p, q) p q = 0 ∧
        (∑ i, ∑ j, if i < j then Rotation.clear M (p, q) i j ^ 2 else 0) =
          (∑ i, ∑ j, if i < j then M i j ^ 2 else 0) - M p q ^ 2) ∧
    ∃ result made low least, A.spectrum = .ok result ∧ result.least = .some low ∧ made ≤ Spectrum.maxSweeps ∧
      result.values = ((Rotation.visits n made).foldl Rotation.clear (A.mean n)).diagonal ∧
      result.values.toList.sum = (A.mat n n).trace ∧
      LeastEigenvalue (A.mean n).matrix least ∧ least ≤ low ∧ (∀ i, low ≤ A.mean n i i) ∧
      (result.settled = true →
        |low - least| ≤ √2 * (1e-14 * max Scalar.smallestNormal (√(∑ i, ∑ j, A.mean n i j ^ 2)))) := by
  have symmetric := A.isSymm_mean n
  refine ⟨fun sweeps visited early => ?_, fun M mirrored p q above large => ?_, ?_⟩
  · have similar := Rotation.similar_foldl_clear visited
      (fun place member => Rotation.above_of_mem_visits (early.subset member)) (A.mean n)
    exact ⟨similar.isSymm symmetric, similar⟩
  · have apart := above.ne
    have nonzero := Rotation.ne_zero_of_large large
    rw [Rotation.clear_of_large large, ← Spectrum.offDiagonal_sq, ← Spectrum.offDiagonal_sq]
    exact ⟨(Rotation.rotate_plane mirrored apart nonzero).1, Rotation.offDiagonal_rotate mirrored apart nonzero⟩
  · obtain ⟨made, within, last⟩ := Spectrum.values_ofSquare (A.mean n)
    obtain ⟨low, least, found, below, smallest, lower, upper⟩ := Spectrum.least_ofSquare symmetric nonempty
    refine ⟨_, made, low, least, spectrum_eq_mean high wide, found, within, last, ?_, smallest, lower, upper,
      fun settled => ?_⟩
    · have similar := Rotation.similar_foldl_clear (Rotation.visits n made) (fun _ => Rotation.above_of_mem_visits)
        (A.mean n)
      rw [last, Spectrum.sum_diagonal, similar.trace_eq, trace_mean]
    · have near := smallest.ge_of_form (Spectrum.form_ge_of_settled symmetric settled below)
      rw [Spectrum.magnitude_eq] at near
      rw [abs_of_nonneg (sub_nonneg.mpr lower)]
      linarith

/-- A table that is not its own mirror image. -/
noncomputable def sheared : Table ℝ :=
  .ofFn 2 2 fun i j => if j < i then 0 else if i < j then 4 else 1

theorem matrix_mean_sheared : (sheared.mean 2).matrix = !![1, 2; 2, 1] := by
  rw [matrix_mean, sheared, mat_ofFn]
  ext i j
  fin_cases i <;> fin_cases j <;> norm_num

/-- Its mean has the eigenvalues minus one and three. -/
theorem least_sheared {low : ℝ} (smallest : LeastEigenvalue (sheared.mean 2).matrix low) : low = -1 := by
  have mean : ∀ x : Fin 2 → ℝ, x ⬝ᵥ (sheared.mean 2).matrix.mulVec x = 2 * (x 0 + x 1) ^ 2 - x ⬝ᵥ x := by
    intro x
    rw [matrix_mean_sheared]
    simp [dotProduct, Matrix.mulVec, Fin.sum_univ_two]
    ring
  refine le_antisymm ?_ (smallest.ge_of_form fun x => ?_)
  · have form := form_ge_of_spectrum (sheared.isSymm_mean 2) smallest.least.2 ![1, -1]
    rw [mean] at form
    norm_num [dotProduct, Fin.sum_univ_two] at form
    linarith
  · rw [mean]
    nlinarith [sq_nonneg (x 0 + x 1)]

/-- The values found for it have the sum two, and the least of them is as near to minus one as the sweeps were
asked for. -/
theorem spectrum_by_rotations_sheared : ∃ result low, sheared.spectrum = .ok result ∧ result.least = .some low ∧
    result.values.toList.sum = 2 ∧ -1 ≤ low ∧ low ≤ 1 ∧
    |low + 1| ≤ √2 * (1e-14 * max Scalar.smallestNormal (√(∑ i, ∑ j, sheared.mean 2 i j ^ 2))) := by
  have high : sheared.height = 2 := height_ofFn 2 2 _
  obtain ⟨_, _, result, _, low, least, found, atLow, _, _, total, smallest, lower, upper, near⟩ :=
    spectrum_by_rotations high rfl two_pos
  obtain rfl := least_sheared smallest
  have corner : sheared.mean 2 0 0 = 1 := congrFun (congrFun matrix_mean_sheared 0) 0
  have beside : sheared.mean 2 0 1 = 2 := congrFun (congrFun matrix_mean_sheared 0) 1
  have settled : result.settled = true := by
    obtain rfl := Except.ok.inj ((spectrum_eq_mean high rfl).symm.trans found)
    refine Rotation.settled_of_plane (sheared.isSymm_mean 2) ?_
    rw [beside]
    exact Scalar.smallestNormal_le_one.trans_lt (by norm_num)
  refine ⟨result, low, found, atLow, ?_, lower, corner ▸ upper 0, ?_⟩
  · rw [total, sheared, mat_ofFn]
    norm_num [Matrix.trace, Fin.sum_univ_two]
  · rw [← sub_neg_eq_add]
    exact near settled

end Table

end Downhill
