import Mathlib
import Downhill.Proofs.Definite.Arithmetic
import Downhill.Spectrum

namespace Downhill

variable {quotient root : ℝ → ℝ} {n : Nat}

namespace Rotation

theorem radicand_pos (v : ℝ) : 0 < v * v + 1 :=
  add_pos_of_nonneg_of_pos (mul_self_nonneg v) one_pos

theorem tangentDivisor_pos (v : ℝ) : 0 < |v| + √(v * v + 1) :=
  add_pos_of_nonneg_of_pos (abs_nonneg v) (Real.sqrt_pos.mpr (radicand_pos v))

/-- An entry that is not negligible is no zero, and neither is twice the entry. -/
theorem entry_of_clear {A : Square ℝ n} {p q : Fin n} (large : ¬|A p q| ≤ Scalar.smallestNormal) :
    (2.0 * A p q : ℝ) ≠ 0 :=
  mul_ne_zero (by norm_num) (abs_pos.mp (Scalar.smallestNormal_pos.trans (not_le.mp large)))

theorem tangent_extended {A : Square ℝ n} {p q : Fin n} (entry : (2.0 * A p q : ℝ) ≠ 0) :
    @tangent ℝ (.extended quotient root) n A p q = tangent A p q := by
  have last (v w : ℝ) :
    (Scalar.extended quotient root).div w (|v| + (Scalar.extended quotient root).sqrt (v * v + 1)) =
      w / (|v| + √(v * v + 1)) := by
    rw [Scalar.sqrt_extended (radicand_pos v).le]
    exact Scalar.div_extended w (tangentDivisor_pos v).ne'
  unfold tangent
  change (let ratio := (Scalar.extended quotient root).div (A q q - A p p) (2.0 * A p q)
    if Scalar.IsZero ratio then 1
    else (Scalar.extended quotient root).div (Scalar.signum ratio)
      (|ratio| + (Scalar.extended quotient root).sqrt (ratio * ratio + 1))) = _
  rw [Scalar.div_extended _ entry]
  exact ite_congr rfl (fun _ => rfl) fun _ => last _ _

theorem rotate_extended {A : Square ℝ n} {p q : Fin n} (entry : (2.0 * A p q : ℝ) ≠ 0) :
    @rotate ℝ (.extended quotient root) n A p q = rotate A p q := by
  unfold rotate
  rw [tangent_extended entry]
  generalize tangent A p q = t
  change (let c := (Scalar.extended quotient root).div 1 ((Scalar.extended quotient root).sqrt (t * t + 1))
    let s := t * c
    turnRows (turnColumns A p q c s) p q c s) = _
  rw [Scalar.div_sqrt_extended 1 (radicand_pos t)]
  rfl

theorem clear_extended : @clear ℝ (.extended quotient root) n = clear := by
  funext A place
  unfold clear
  rw [Scalar.smallestNormal_extended]
  exact ite_congr rfl (fun _ => rfl) fun large => rotate_extended (entry_of_clear large)

theorem sweep_extended : @sweep ℝ (.extended quotient root) n = sweep := by
  unfold sweep
  rw [clear_extended]

end Rotation

namespace Spectrum

theorem offDiagonal_radicand (A : Square ℝ n) :
    0 ≤ Scalar.total ((Square.above n).map fun place => A place.1 place.2 * A place.1 place.2) :=
  Scalar.total_nonneg (List.forall_mem_map.mpr fun _ _ => mul_self_nonneg _)

theorem magnitude_radicand (A : Square ℝ n) :
    0 ≤ Scalar.total ((List.finRange n).flatMap fun i => (List.finRange n).map fun j => A i j * A i j) := by
  refine Scalar.total_nonneg fun v member => ?_
  obtain ⟨i, _, inside⟩ := List.mem_flatMap.mp member
  exact List.forall_mem_map.mpr (fun _ _ => mul_self_nonneg _) v inside

theorem offDiagonal_extended : @offDiagonal ℝ (.extended quotient root) n = offDiagonal :=
  funext fun A => Scalar.sqrt_extended (offDiagonal_radicand A)

theorem magnitude_extended : @magnitude ℝ (.extended quotient root) n = magnitude :=
  funext fun A => congrArg₂ (Scalar.atLeast : ℝ → ℝ → ℝ) (Scalar.smallestNormal_extended)
    (Scalar.sqrt_extended (magnitude_radicand A))

theorem diagonalize_extended (bound : ℝ) (sweeps : Nat) (A : Square ℝ n) :
    @diagonalize ℝ (.extended quotient root) n bound sweeps A = diagonalize bound sweeps A := by
  induction sweeps generalizing A with
  | zero => rfl
  | succ sweeps ih =>
    change (if @offDiagonal ℝ (.extended quotient root) n A ≤ bound then (A, true) else
      @diagonalize ℝ (.extended quotient root) n bound sweeps (@Rotation.sweep ℝ (.extended quotient root) n A)) = _
    rw [offDiagonal_extended, Rotation.sweep_extended, ih]
    rfl

theorem ofSquare_extended : @ofSquare ℝ (.extended quotient root) n = ofSquare := by
  funext A
  unfold ofSquare
  rw [magnitude_extended]
  simp only [diagonalize_extended]

end Spectrum

theorem Table.spectrum_extended : @spectrum ℝ (.extended quotient root) = spectrum := by
  funext A
  unfold spectrum
  simp only [Spectrum.ofSquare_extended]
  rfl

end Downhill
