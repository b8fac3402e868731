import Mathlib
import Downhill.Proofs.Definite.Spectrum
import Downhill.Proofs.Spectrum.Bound

namespace Downhill

namespace Rotation

variable {n : Nat} {M : Square ℝ n} {p q : Fin n}

theorem signum_mul_self (v : ℝ) : Scalar.signum v * Scalar.signum v = 1 ∧ v * Scalar.signum v = |v| := by
  change (if v < 0 then (-1 : ℝ) else 1) * (if v < 0 then -1 else 1) = 1 ∧ v * (if v < 0 then -1 else 1) = |v|
  split
  · rename_i negative
    rw [abs_of_neg negative]
    constructor <;> ring
  · rename_i nonneg
    rw [abs_of_nonneg (not_lt.mp nonneg)]
    constructor <;> ring

/-- The tangent is a root of the equation for the angles that clear the entry, and of the two that of the
smaller angle. -/
theorem tangent_root (M : Square ℝ n) (p q : Fin n) :
    tangent M p q ^ 2 + 2 * ((M q q - M p p) / (2 * M p q)) * tangent M p q = 1 ∧ tangent M p q ^ 2 ≤ 1 := by
  have two : (2.0 : ℝ) = 2 := by norm_num
  unfold tangent
  rw [two]
  generalize (M q q - M p p) / (2 * M p q) = ratio
  dsimp only
  split
  · rename_i zero
    obtain rfl := le_antisymm zero.1 zero.2
    norm_num
  · let divisor := |ratio| + √(ratio * ratio + 1)
    change (Scalar.signum ratio / divisor) ^ 2 + 2 * ratio * (Scalar.signum ratio / divisor) = 1 ∧
      (Scalar.signum ratio / divisor) ^ 2 ≤ 1
    obtain ⟨unit, size⟩ := signum_mul_self ratio
    have positive : 0 < divisor := tangentDivisor_pos ratio
    have square : divisor ^ 2 = 1 + 2 * (|ratio| * divisor) := by
      have root : √(ratio * ratio + 1) ^ 2 = |ratio| ^ 2 + 1 := by
        rw [Real.sq_sqrt (radicand_pos ratio).le, sq_abs, sq]
      linear_combination root
    have share : (Scalar.signum ratio / divisor) ^ 2 = 1 / divisor ^ 2 := by rw [div_pow, sq, unit]
    have along : 2 * ratio * (Scalar.signum ratio / divisor) = 2 * (|ratio| * divisor) / divisor ^ 2 := by
      rw [← size]
      field_simp
    constructor
    · rw [share, along, ← add_div, ← square, div_self (pow_pos positive 2).ne']
    · have nonneg : 0 ≤ |ratio| * divisor := by positivity
      rw [share, div_le_one (pow_pos positive 2), square]
      linarith

/-- What the tangent balances: the entry to be cleared against the difference of the two on the diagonal. -/
theorem tangent_balance (nonzero : M p q ≠ 0) :
    (1 - tangent M p q ^ 2) * M p q = tangent M p q * (M q q - M p p) := by
  obtain ⟨root, _⟩ := tangent_root M p q
  field_simp at root
  linear_combination -root

theorem cosine_sq (t : ℝ) : 1 / √(t * t + 1) * (1 / √(t * t + 1)) * (t ^ 2 + 1) = 1 := by
  rw [div_mul_div_comm, one_mul, Real.mul_self_sqrt (radicand_pos t).le, sq,
    one_div_mul_cancel (radicand_pos t).ne']

/-- The entries in the plane of a rotation: the one beside the diagonal is cleared, and what it held goes to the
two on it. -/
theorem rotate_plane (symmetric : M.matrix.IsSymm) (apart : p ≠ q) (nonzero : M p q ≠ 0) :
    rotate M p q p q = 0 ∧ rotate M p q p p = M p p - tangent M p q * M p q ∧
      rotate M p q q q = M q q + tangent M p q * M p q := by
  have mirrored : M q p = M p q := symmetric.apply p q
  have balance := tangent_balance nonzero
  have unit := cosine_sq (tangent M p q)
  simp only [rotate, turnRows, turnColumns, Square.entry_ofFn, if_true, apart.symm, if_false, Scalar.sqrt_exact,
    mirrored]
  generalize 1 / √(tangent M p q * tangent M p q + 1) = c at *
  refine ⟨?_, ?_, ?_⟩
  · linear_combination c * c * balance
  · linear_combination (M p p - tangent M p q * M p q) * unit - c * c * tangent M p q * balance
  · linear_combination (M q q + tangent M p q * M p q) * unit + c * c * tangent M p q * balance

/-- Outside its plane a rotation leaves the diagonal alone. -/
theorem rotate_diagonal {i : Fin n} (first : i ≠ p) (second : i ≠ q) : rotate M p q i i = M i i := by
  simp only [rotate, turnRows, turnColumns, Square.entry_ofFn, first, second, if_false]

/-- The diagonal gains what the cleared entry and its mirror image lose. -/
theorem sum_sq_diagonal_rotate (symmetric : M.matrix.IsSymm) (apart : p ≠ q) (nonzero : M p q ≠ 0) :
    ∑ i, rotate M p q i i ^ 2 = (∑ i, M i i ^ 2) + 2 * M p q ^ 2 := by
  obtain ⟨_, first, second⟩ := rotate_plane symmetric apart nonzero
  have gain : ∑ i, (rotate M p q i i ^ 2 - M i i ^ 2) =
      rotate M p q p p ^ 2 - M p p ^ 2 + (rotate M p q q q ^ 2 - M q q ^ 2) :=
    Fintype.sum_eq_add p q apart fun i others => by rw [rotate_diagonal others.1 others.2, sub_self]
  rw [Finset.sum_sub_distrib, first, second] at gain
  linear_combination gain - 2 * M p q * tangent_balance nonzero

/-- The squares above the diagonal lose the square of the entry that is cleared, and nothing else. -/
theorem offDiagonal_rotate (symmetric : M.matrix.IsSymm) (apart : p ≠ q) (nonzero : M p q ≠ 0) :
    Spectrum.offDiagonal (rotate M p q) ^ 2 = Spectrum.offDiagonal M ^ 2 - M p q ^ 2 := by
  have parts : ∀ C : Square ℝ n, C.matrix.IsSymm →
      ∑ i, ∑ j, C i j ^ 2 = (∑ i, C i i ^ 2) + 2 * Spectrum.offDiagonal C ^ 2 := by
    intro C mirrored
    rw [Spectrum.offDiagonal_sq]
    exact Square.sum_symmetric fun i j => congrArg (· ^ 2) (mirrored.apply j i)
  have similar := similar_rotate M apart
  have whole := similar.sum_sq_eq
  rw [parts _ (similar.isSymm symmetric), parts M symmetric,
    sum_sq_diagonal_rotate symmetric apart nonzero] at whole
  linarith

/-- The smaller of the two diagonal entries in the plane of a rotation falls below both. -/
theorem exists_rotate_le (symmetric : M.matrix.IsSymm) (apart : p ≠ q) (nonzero : M p q ≠ 0) :
    ∃ j, rotate M p q j j ≤ M p p ∧ rotate M p q j j ≤ M q q := by
  obtain ⟨_, first, second⟩ := rotate_plane symmetric apart nonzero
  have balance := tangent_balance nonzero
  have turns : tangent M p q ≠ 0 := by
    intro still
    rw [still] at balance
    exact nonzero (by linarith)
  -- The change of the two entries has the sign of the difference between them.
  have along : 0 ≤ tangent M p q * M p q * (M q q - M p p) := by
    have rest : 0 ≤ 1 - tangent M p q ^ 2 := sub_nonneg.mpr (tangent_root M p q).2
    calc (0 : ℝ) ≤ (1 - tangent M p q ^ 2) * M p q ^ 2 := by positivity
      _ = tangent M p q * M p q * (M q q - M p p) := by linear_combination M p q * balance
  rcases lt_or_gt_of_ne (mul_ne_zero turns nonzero) with down | up
  · have order : M q q - M p p ≤ 0 := nonpos_of_mul_nonneg_right along down
    exact ⟨q, by linarith, by linarith⟩
  · have order : 0 ≤ M q q - M p p := nonneg_of_mul_nonneg_right along up
    exact ⟨p, by linarith, by linarith⟩

theorem ne_zero_of_large {v : ℝ} (large : Scalar.smallestNormal < |v|) : v ≠ 0 :=
  abs_pos.mp (Scalar.smallestNormal_pos.trans large)

theorem clear_of_large {place : Fin n × Fin n} (large : Scalar.smallestNormal < |M place.1 place.2|) :
    clear M place = rotate M place.1 place.2 :=
  if_neg (not_le.mpr large)

/-- No diagonal entry is below all of those after a rotation, made or left out. -/
theorem exists_clear_le (symmetric : M.matrix.IsSymm) {place : Fin n × Fin n} (above : place.1 < place.2)
    (i : Fin n) :
    ∃ j, clear M place j j ≤ M i i := by
  rcases le_or_gt |M place.1 place.2| Scalar.smallestNormal with small | large
  · exact ⟨i, (congrFun (congrFun (congrArg Square.entry (if_pos small)) i) i).le⟩
  · obtain ⟨j, first, second⟩ := exists_rotate_le symmetric above.ne (ne_zero_of_large large)
    rw [clear_of_large large]
    by_cases onFirst : i = place.1
    · exact ⟨j, onFirst ▸ first⟩
    · by_cases onSecond : i = place.2
      · exact ⟨j, onSecond ▸ second⟩
      · exact ⟨i, (rotate_diagonal onFirst onSecond).le⟩

theorem exists_foldl_clear_le (places : List (Fin n × Fin n)) (above : ∀ place ∈ places, place.1 < place.2)
    {A : Square ℝ n} (symmetric : A.matrix.IsSymm) (i : Fin n) : ∃ j, places.foldl clear A j j ≤ A i i := by
  induction places generalizing A i with
  | nil => exact ⟨i, le_rfl⟩
  | cons place rest ih =>
    have next := above place List.mem_cons_self
    obtain ⟨j, lower⟩ := exists_clear_le symmetric next i
    obtain ⟨k, lowest⟩ := ih (fun other member => above other (List.mem_cons_of_mem place member))
      ((similar_clear A next).isSymm symmetric) j
    exact ⟨k, lowest.trans lower⟩

/-- The positions that so many sweeps visit, in their order. -/
def visits (n sweeps : Nat) : List (Fin n × Fin n) :=
  (List.replicate sweeps (Square.above n)).flatten

theorem above_of_mem_visits {sweeps : Nat} {place : Fin n × Fin n} (member : place ∈ visits n sweeps) :
    place.1 < place.2 := by
  obtain ⟨row, repeated, inside⟩ := List.mem_flatten.mp member
  rw [List.eq_of_mem_replicate repeated] at inside
  exact Square.mem_above.mp inside

/-- The sweeps come to an end after some number of whole ones. -/
theorem diagonalize_eq_foldl (bound : ℝ) (sweeps : Nat) (A : Square ℝ n) :
    ∃ made ≤ sweeps, (Spectrum.diagonalize bound sweeps A).1 = (visits n made).foldl clear A := by
  induction sweeps generalizing A with
  | zero => exact ⟨0, le_rfl, rfl⟩
  | succ sweeps ih =>
    unfold Spectrum.diagonalize
    split
    · exact ⟨0, Nat.zero_le _, rfl⟩
    · obtain ⟨made, within, last⟩ := ih (sweep A)
      refine ⟨made + 1, Nat.succ_le_succ within, last.trans ?_⟩
      rw [visits, visits, List.replicate_succ, List.flatten_cons, List.foldl_append]
      rfl

/-- In a plane the first rotation leaves nothing to be done. -/
theorem settled_of_plane {S : Square ℝ 2} (symmetric : S.matrix.IsSymm) (large : Scalar.smallestNormal < |S 0 1|) :
    (Spectrum.ofSquare S).settled = true := by
  have once : sweep S = rotate S 0 1 := by
    have places : Square.above 2 = [(0, 1)] := by decide
    rw [sweep, places]
    exact @clear_of_large 2 S (0, 1) large
  have cleared : Spectrum.offDiagonal (sweep S) = 0 := by
    refine pow_eq_zero_iff two_ne_zero |>.mp ?_
    rw [once, offDiagonal_rotate symmetric zero_ne_one (ne_zero_of_large large), Spectrum.offDiagonal_sq]
    simp [Fin.sum_univ_two]
  have nonneg : 0 ≤ 1e-14 * Spectrum.magnitude S := by
    rw [Spectrum.magnitude_eq]
    positivity
  change (Spectrum.diagonalize (1e-14 * Spectrum.magnitude S) (98 + 1 + 1) S).2 = true
  rw [Spectrum.diagonalize]
  split
  · rfl
  · rw [Spectrum.diagonalize, if_pos (cleared.trans_le nonneg)]

end Rotation

end Downhill
