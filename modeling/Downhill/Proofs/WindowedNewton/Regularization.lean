import Mathlib
import Downhill.Proofs.Cholesky.Solution
import Downhill.Proofs.Spectrum.LeastEigenvalue
import Downhill.Proofs.WindowedNewton

namespace Downhill.WindowedNewton

variable {config : Config ℝ} {A : Table ℝ} {n : Nat}

theorem mat_shiftDiagonal (high : A.height = n) (wide : A.width = n) (amount : ℝ) :
    (shiftDiagonal A amount).mat n n = A.mat n n + amount • (1 : Matrix (Fin n) (Fin n) ℝ) := by
  subst high
  ext i j
  have entry := Table.entry_ofFn (fun (i : Fin A.height) (j : Fin A.width) =>
    if i.val = j.val then A.entry i j + amount else A.entry i j) i (j.cast wide.symm)
  have tall : (shiftDiagonal A amount).height = A.height := Table.height_ofFn _ _ _
  rw [Table.mat_entry (A := shiftDiagonal A amount) (i.isLt.trans_eq tall.symm) (j.isLt.trans_eq wide.symm),
    Matrix.add_apply, Table.mat_entry (A := A) i.isLt (j.isLt.trans_eq wide.symm), Matrix.smul_apply,
    Matrix.one_apply]
  refine entry.trans ?_
  by_cases same : i = j
  · subst same
    simp [Fin.cast]
  · simp [Fin.cast, same, Fin.val_ne_of_ne same]

/-- What is added to the diagonal, never a negative amount, brings the least value up to the threshold. -/
theorem regularize_ok (config : Config ℝ) {spectrum : Spectrum ℝ} (found : A.spectrum = .ok spectrum)
    (high : A.height = n) (wide : A.width = n) : ∃ raised amount, regularize config A = .ok raised ∧
      raised.height = n ∧ raised.width = n ∧ 0 ≤ amount ∧
      raised.mat n n = A.mat n n + amount • (1 : Matrix (Fin n) (Fin n) ℝ) ∧
      ∀ low, spectrum.least = some low → amount = max 0 (config.threshold - low) := by
  have unchanged : A.mat n n = A.mat n n + (0 : ℝ) • (1 : Matrix (Fin n) (Fin n) ℝ) := by simp
  simp only [regularize, found, Outcome.bind_eq_ok, Except.ok.injEq, exists_eq_left']
  cases spectrum.least with
  | none => exact ⟨A, 0, rfl, high, wide, le_rfl, unchanged, fun low impossible => by cases impossible⟩
  | some low =>
    by_cases under : low < config.threshold
    · refine ⟨_, config.threshold - low, if_pos under, (Table.height_ofFn _ _ _).trans high, wide,
        (sub_pos.mpr under).le, mat_shiftDiagonal high wide _, fun other same => ?_⟩
      cases same
      exact (max_eq_right (sub_pos.mpr under).le).symm
    · refine ⟨A, 0, if_neg under, high, wide, le_rfl, unchanged, fun other same => ?_⟩
      cases same
      exact (max_eq_left (sub_nonpos.mpr (not_lt.mp under))).symm

/-- A symmetric table is raised to a form that is nowhere below the threshold by more than what a settled
spectrum leaves open. -/
theorem regularize_of_isSymm (config : Config ℝ) (high : A.height = n) (wide : A.width = n)
    (symmetric : (A.mat n n).IsSymm) : ∃ spectrum raised, A.spectrum = .ok spectrum ∧
      regularize config A = .ok raised ∧ raised.height = n ∧ raised.width = n ∧ (raised.mat n n).IsSymm ∧
      (spectrum.settled = true → ∀ y : Fin n → ℝ,
        (config.threshold - √2 * (1e-14 * max Scalar.smallestNormal (√(∑ i, ∑ j, A.mat n n i j ^ 2)))) *
          (y ⬝ᵥ y) ≤ y ⬝ᵥ (raised.mat n n).mulVec y) := by
  subst high
  let square := A.toSquare wide
  have same : square.matrix = A.mat A.height A.height := A.matrix_toSquare wide
  have found : A.spectrum = .ok (.ofSquare square) := Table.spectrum_of_isSymm wide symmetric
  obtain ⟨raised, amount, made, tall, broad, _, sum, enough⟩ := regularize_ok config found rfl wide
  refine ⟨_, raised, found, made, tall, broad, ?_, fun settled y => ?_⟩
  · rw [sum]
    exact symmetric.add (Matrix.isSymm_one.smul amount)
  · have length : 0 ≤ y ⬝ᵥ y := dotProduct_self_star_nonneg y
    have norm : max Scalar.smallestNormal (√(∑ i, ∑ j, A.mat A.height A.height i j ^ 2)) =
        Spectrum.magnitude square := by rw [Spectrum.magnitude_eq, ← same]; rfl
    by_cases empty : A.height = 0
    · have vacant : IsEmpty (Fin A.height) := empty ▸ Fin.isEmpty
      simp
    · have size : (Spectrum.ofSquare square).values.entries.size = A.height := Coords.size_ofFn _
      have nonempty : (Spectrum.ofSquare square).values.toList ≠ [] := by
        rw [Coords.toList, ← List.length_pos_iff, Array.length_toList]
        omega
      obtain ⟨low, least, _, below⟩ := Spectrum.least_spec nonempty
      have form := Spectrum.form_ge_of_settled (same ▸ symmetric) settled below y
      have reached : config.threshold ≤ low + amount := by
        rw [enough low least]
        linarith [le_max_right 0 (config.threshold - low)]
      rw [norm, sum, Matrix.add_mulVec, dotProduct_add, Matrix.smul_mulVec, Matrix.one_mulVec, dotProduct_smul,
        smul_eq_mul, ← same]
      have slack := mul_le_mul_of_nonneg_right reached length
      linarith

/-- A symmetric table, not without rows, whose sweeps settle. What is added to its diagonal is never negative
and lifts the form everywhere to the threshold, up to what the sweeps were allowed to leave; and where anything
is added, the least eigenvalue is not lifted above the threshold. -/
theorem regularize_lifts (config : Config ℝ) (high : A.height = n) (wide : A.width = n) (nonempty : 0 < n)
    (symmetric : (A.mat n n).IsSymm) {spectrum : Spectrum ℝ} (found : A.spectrum = .ok spectrum)
    (settled : spectrum.settled = true) :
    ∃ (raised : Table ℝ) (amount : ℝ), regularize config A = .ok raised ∧ raised.height = n ∧ raised.width = n ∧
    0 ≤ amount ∧
      raised.mat n n = A.mat n n + amount • (1 : Matrix (Fin n) (Fin n) ℝ) ∧
      (∀ x : Fin n → ℝ,
        (config.threshold - √2 * (1e-14 * max Scalar.smallestNormal (√(∑ i, ∑ j, A.mat n n i j ^ 2)))) * (x ⬝ᵥ x) ≤
          x ⬝ᵥ (raised.mat n n).mulVec x) ∧
      (0 < amount → ∃ least, LeastEigenvalue (raised.mat n n) least ∧ least ≤ config.threshold) := by
  obtain ⟨raised, amount, made, tall, broad, nonneg, sum, missing⟩ := regularize_ok config found high wide
  obtain ⟨_, _, sameSpectrum, sameRaised, _, _, kept, lifted⟩ := regularize_of_isSymm config high wide symmetric
  obtain rfl := Except.ok.inj (sameSpectrum.symm.trans found)
  obtain rfl := Except.ok.inj (sameRaised.symm.trans made)
  refine ⟨_, amount, made, tall, broad, nonneg, sum, lifted settled, fun shifted => ?_⟩
  subst high
  have same := A.matrix_toSquare wide
  obtain rfl := Except.ok.inj ((Table.spectrum_of_isSymm wide symmetric).symm.trans found)
  obtain ⟨low, least, atLow, _, smallest, lower, _⟩ := Spectrum.least_ofSquare (same ▸ symmetric) nonempty
  obtain ⟨lifted, smallestLifted⟩ := exists_leastEigenvalue kept nonempty
  refine ⟨lifted, smallestLifted, ?_⟩
  have needed := missing low atLow
  have exceeded : max 0 (config.threshold - low) = config.threshold - low :=
    max_eq_right_of_lt ((lt_max_iff.mp (needed ▸ shifted)).resolve_left (lt_irrefl 0))
  rw [sum, ← same] at smallestLifted
  calc lifted ≤ least + amount := smallest.le_add smallestLifted
    _ ≤ low + amount := by linarith
    _ = config.threshold := by rw [needed, exceeded, add_sub_cancel]

/-- A form that rises along one diagonal of the plane and falls along the other. -/
noncomputable def saddle : Table ℝ :=
  .ofFn 2 2 fun i j => if i = j then 1 else 2.0

theorem height_saddle : saddle.height = 2 :=
  Table.height_ofFn 2 2 _

theorem mat_saddle : saddle.mat 2 2 = !![1, 2; 2, 1] := by
  rw [saddle, Table.mat_ofFn]
  ext i j
  fin_cases i <;> fin_cases j <;> norm_num

theorem isSymm_saddle : (saddle.mat 2 2).IsSymm := by
  rw [mat_saddle]
  exact Matrix.IsSymm.ext fun i j => by fin_cases i <;> fin_cases j <;> rfl

/-- A table of the plane with something of size beside its diagonal is settled by one rotation. -/
theorem settled_of_beside {spectrum : Spectrum ℝ} (high : A.height = 2) (wide : A.width = 2)
    (symmetric : (A.mat 2 2).IsSymm) (large : 1 < |A.mat 2 2 0 1|) (found : A.spectrum = .ok spectrum) :
    spectrum.settled = true := by
  obtain rfl := Except.ok.inj ((Table.spectrum_eq_mean high wide).symm.trans found)
  have mean : (A.mean 2).matrix = A.mat 2 2 := (A.matrix_mean 2).trans (Table.mean_of_isSymm symmetric)
  have beside : A.mean 2 0 1 = A.mat 2 2 0 1 := congrFun (congrFun mean 0) 1
  refine Rotation.settled_of_plane (A.isSymm_mean 2) ?_
  rw [beside]
  exact Scalar.smallestNormal_le_one.trans_lt large

/-- What the sweeps may leave of a table of moderate size is not much. -/
theorem slack_le_half (moderate : ∑ i, ∑ j, A.mat n n i j ^ 2 ≤ 1e4) :
    √2 * (1e-14 * max Scalar.smallestNormal (√(∑ i, ∑ j, A.mat n n i j ^ 2))) ≤ 1 / 2 := by
  have root : √2 ≤ 2 := Real.sqrt_le_iff.mpr ⟨zero_le_two, by norm_num⟩
  have size : √(∑ i, ∑ j, A.mat n n i j ^ 2) ≤ 100 :=
    Real.sqrt_le_iff.mpr ⟨by norm_num, moderate.trans (by norm_num)⟩
  have most := max_le (Scalar.smallestNormal_le_one.trans (by norm_num)) size
  calc _ ≤ 2 * (1e-14 * 100) := by gcongr
    _ ≤ (1 / 2 : ℝ) := by norm_num

theorem moderate_saddle : ∑ i, ∑ j, saddle.mat 2 2 i j ^ 2 ≤ 1e4 := by
  rw [mat_saddle]
  norm_num [Fin.sum_univ_two]

/-- It is lifted, and to no more than the threshold. -/
theorem regularize_lifts_saddle :
    ∃ (raised : Table ℝ) (amount : ℝ), regularize ⟨2, 1 / 2, 1 / 4, 1 / 2⟩ saddle = .ok raised ∧ 0 < amount ∧
    raised.mat 2 2 = saddle.mat 2 2 + amount • (1 : Matrix (Fin 2) (Fin 2) ℝ) ∧
    ∃ least, LeastEigenvalue (raised.mat 2 2) least ∧ least ≤ 1 / 2 := by
  have found := Table.spectrum_eq_mean height_saddle rfl
  have settled : (Spectrum.ofSquare (saddle.mean 2)).settled = true :=
    settled_of_beside height_saddle rfl isSymm_saddle (by norm_num [mat_saddle]) found
  obtain ⟨raised, amount, made, _, _, nonneg, sum, lifted, enough⟩ := regularize_lifts ⟨2, 1 / 2, 1 / 4, 1 / 2⟩
    height_saddle rfl two_pos isSymm_saddle found settled
  -- Without a shift the form would still fall along the second diagonal.
  have shifted : 0 < amount := by
    refine nonneg.lt_of_ne fun zero => ?_
    have slack := slack_le_half moderate_saddle
    have form := lifted ![1, -1]
    have falls : ![1, -1] ⬝ᵥ (saddle.mat 2 2).mulVec ![1, -1] = -2 := by
      rw [mat_saddle]
      norm_num [dotProduct, Matrix.mulVec, Fin.sum_univ_two]
    have length : (![1, -1] : Fin 2 → ℝ) ⬝ᵥ ![1, -1] = 2 := by norm_num [dotProduct, Fin.sum_univ_two]
    rw [sum, ← zero, zero_smul, add_zero, falls, length] at form
    dsimp only at form
    linarith
  exact ⟨raised, amount, made, shifted, sum, enough shifted⟩

end Downhill.WindowedNewton
