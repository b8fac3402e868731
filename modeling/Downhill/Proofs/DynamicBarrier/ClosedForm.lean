import Downhill.Proofs.DynamicBarrier.Duality
import Downhill.Proofs.DynamicBarrier.HalfSpace
import Downhill.Proofs.ProximalMomentum.Rest

namespace Downhill.DynamicBarrier

namespace Dual.Settled

section

variable {dual : Dual ℝ} {m n : Nat} {l slope : Coords ℝ} (settled : dual.Settled m l slope)

include settled

theorem max_eq {t : ℝ} (positive : 0 < t) (i : Fin m) : max 0 (l.vec m i - t * slope.vec m i) = l.vec m i := by
  have inside : 0 ≤ l.vec m i := settled.inside i
  rcases inside.lt_or_eq with above | zero
  · rw [settled.slack i above, mul_zero, sub_zero, max_eq_right inside]
  · have fallen : 0 ≤ t * slope.vec m i := mul_nonneg positive.le (settled.rising i)
    rw [← zero, max_eq_left (by linarith)]

/-- The nested solve rests at settled multipliers. -/
theorem rests (fits : dual.Fits m n) : ProximalMomentum.Rests ⟨dual.objective, .nonnegative⟩ l slope := by
  refine ⟨settled.slope_eq, fun t positive => ?_⟩
  obtain ⟨g, atSlope, gSize⟩ := fits.conforming.gradient l settled.size
  obtain rfl := Except.ok.inj (atSlope.symm.trans settled.slope_eq)
  obtain ⟨u, moved, uSize⟩ := Coords.advance_ok settled.size gSize (-t)
  have raised : u.map (Scalar.atLeast 0) = l := by
    refine Coords.eq_of_vec ((Coords.size_map _ u).trans uSize) settled.size (funext fun i => ?_)
    rw [Coords.vec_map_of_size _ uSize, Scalar.atLeast_exact, Coords.vec_advance moved, ← settled.max_eq positive i]
    simp [sub_eq_add_neg]
  rw [Majorant.candidate, moved, ← raised]
  rfl

/-- Where no weights but zero combine the rows to nothing, no other multipliers are least. -/
theorem eq_of_minimizer (fits : dual.Fits m n)
    (independent : ∀ e, (dual.jacobian.mat m n).transpose.mulVec e = 0 → e = 0) {y : Coords ℝ}
    (least : (ProximalTerm.orthant m).Minimizer dual.objective y) : y = l := by
  obtain ⟨v, here⟩ := fits.conforming.value l settled.size
  obtain ⟨w, there⟩ := fits.conforming.value y least.size
  have raised := settled.rise fits least.size least.inside here there
  have below : w + 0 ≤ v + 0 := least.least l v w settled.size settled.inside here there
  set turn := (dual.jacobian.mat m n).transpose.mulVec (y.vec m - l.vec m)
  have square : 0 ≤ turn ⬝ᵥ turn := Finset.sum_nonneg fun i _ => mul_self_nonneg _
  have still : turn = 0 := dotProduct_self_eq_zero.mp (by linarith)
  exact Coords.eq_of_vec least.size settled.size (sub_eq_zero.mp (independent _ still))

end

end Dual.Settled

section

variable {gradient a : Coords ℝ} {J : Table ℝ} {demanded : ℝ} (rows : J.rows = #[a]) (size : gradient.size = a.size)

include rows size

theorem fits_single : Dual.Fits ⟨gradient, J, .constant 1 demanded⟩ 1 a.size :=
  have ⟨high, wide⟩ := Constraints.HalfSpace.shape rows
  ⟨size, high, wide, Coords.size_constant _ _⟩

theorem vec_gradient_single {l : ℝ} {slope : Coords ℝ}
    (made : (⟨gradient, J, .constant 1 demanded⟩ : Dual ℝ).objective.gradient (.constant 1 l) = .ok slope)
    (i : Fin 1) :
    slope.vec 1 i = gradient.pairing a + l * a.pairing a - demanded := by
  have row : J.mat 1 a.size i = a.vec a.size := Constraints.HalfSpace.mat_eq rows i
  rw [(fits_single rows size).vec_gradient made, Constraints.HalfSpace.transpose_mulVec rows,
    Coords.pairing_eq size.le, Coords.pairing_eq le_rfl, Coords.vec_constant, Coords.vec_constant]
  change J.mat 1 a.size i ⬝ᵥ _ - demanded = _
  rw [row, dotProduct_add, dotProduct_smul, smul_eq_mul, dotProduct_comm]

/-- The multiplier of the closed form is settled, whether or not it is clipped. -/
theorem settled_single (above : 0 < a.pairing a) {l q : ℝ} (clipped : l = if 0 ≤ q then q else 0)
    (quotient : q = (demanded - gradient.pairing a) / a.pairing a) :
    ∃ slope, Dual.Settled ⟨gradient, J, .constant 1 demanded⟩ 1 (.constant 1 l) slope := by
  have fits : Dual.Fits ⟨gradient, J, .constant 1 demanded⟩ 1 a.size := fits_single rows size
  obtain ⟨slope, made, _⟩ := fits.conforming.gradient (.constant 1 l) (Coords.size_constant _ _)
  have entry := vec_gradient_single rows size made
  have met := demand_le_of_clipped demanded (gradient.pairing a) above
  rw [← quotient, ← clipped] at met
  refine ⟨slope, Coords.size_constant _ _, made, fun i => ?_, fun i => ?_, fun i positive => ?_⟩
  · rw [Coords.vec_constant, clipped]
    split
    · assumption
    · exact le_rfl
  · rw [entry, Pi.zero_apply]
    linarith
  · rw [Coords.vec_constant] at positive
    -- A positive multiplier was not clipped.
    have unclipped : l = q := by
      rw [clipped] at positive ⊢
      split
      · rfl
      · rename_i negative
        rw [if_neg negative] at positive
        exact absurd positive (lt_irrefl 0)
    rw [entry, unclipped, quotient, div_mul_cancel₀ _ above.ne']
    ring

end

/-- For one row that is not zero the closed form gives the one least among the multipliers that are not
negative. A projected gradient step of any scale leads back to it, so that the accelerated method stays there,
and its direction is the closest to the reversed gradient that meets the demand. -/
theorem single_solves_nested (config : Config ℝ) (gradient a : Coords ℝ) (demanded : ℝ) (J : Table ℝ)
    (rows : J.rows = #[a]) (nonzero : a ≠ .zeros a.size) (size : gradient.size = a.size) :
    let dual : Dual ℝ := ⟨gradient, J, .constant 1 demanded⟩
    let p : Composite ℝ := ⟨dual.objective, .nonnegative⟩
    ∃ l slope, (multipliers config gradient J dual.barrier).outcome = .ok l ∧
    dual.objective.gradient l = .ok slope ∧
      (∀ y, (ProximalTerm.orthant 1).Minimizer dual.objective y ↔ y = l) ∧
      (∀ t, 0 < t → (∀ i, max 0 (l.vec 1 i - t * slope.vec 1 i) = l.vec 1 i) ∧
        Majorant.candidate p.prox l slope t = .ok l) ∧
      (∀ inner, ProximalMomentum.schema.validate inner = .ok () →
        (∀ k, ∃ s, ProximalMomentum.method.after inner p l () k = .ok (s, ()) ∧ s.point = l ∧
          (1 ≤ k → s.finished = true)) ∧
        ∀ budget, 1 ≤ budget → ∃ summary, (ProximalMomentum.method.solve inner p l budget).outcome = .ok summary ∧
          summary.state.point = l ∧ summary.finished = true) ∧
      ∃ d, direction gradient J l = .ok d ∧
        gradient.neg.Closest (fun v => v.size = a.size ∧ a.pairing v ≤ -demanded) d := by
  intro dual p
  have positive := pairing_self_pos nonzero
  have fits : dual.Fits 1 a.size := fits_single rows size
  have row : J.row ⟨0, fits.high ▸ one_pos⟩ = a := by simp [Table.row, rows]
  have present : 0 < dual.barrier.size := fits.barrier.symm ▸ one_pos
  obtain ⟨q, found, quotient⟩ := single_eq_ok size present
  obtain ⟨slope, settled⟩ := settled_single rows size positive rfl (quotient positive)
  have independent : ∀ e, (J.mat 1 a.size).transpose.mulVec e = 0 → e = 0 := by
    intro e none
    rw [Constraints.HalfSpace.transpose_mulVec rows, smul_eq_zero] at none
    refine none.elim (fun zero => funext fun i => Subsingleton.elim i 0 ▸ zero) fun zero => absurd ?_ nonzero
    exact Coords.eq_of_vec rfl (Coords.size_constant _ _) (zero.trans Coords.vec_zeros.symm)
  have proximal := ProximalTerm.nonnegative_isExact 1
  have rests := settled.rests fits
  obtain ⟨d, atDirection, _⟩ := fits.direction_ok settled.size
  have half : ∀ (i : Fin 1) v, J.mat 1 a.size i ⬝ᵥ v.vec a.size ≤ -dual.barrier.vec 1 i ↔
      a.pairing v ≤ -demanded := by
    intro i v
    rw [Constraints.HalfSpace.mat_eq rows, Coords.vec_constant, Coords.pairing_eq le_rfl]
  have closest := settled.closest fits atDirection
  simp only [dual, half, forall_const] at closest
  refine ⟨_, slope, multipliers_of_one fits.high row found, settled.slope_eq, fun y => ⟨?_, ?_⟩, fun t scale => ?_,
    fun inner valid => ?_, d, atDirection, closest⟩
  · exact settled.eq_of_minimizer fits independent
  · rintro rfl
    exact settled.minimizer fits
  · exact ⟨settled.max_eq scale, rests.still t scale⟩
  · exact ⟨ProximalMomentum.after_rest fits.conforming (dual.expands 1) proximal valid rests settled.size,
      fun _ => ProximalMomentum.solve_rest fits.conforming (dual.expands 1) proximal valid rests settled.size⟩

/-- Where the reversed gradient misses the demand: the closed form gives two, which takes the direction to the
border of the half-plane. -/
theorem single_solves_nested_slanted :
    let a : Coords ℝ := .ofFn ![1, 2]
    let gradient : Coords ℝ := .ofFn ![-3, -1]
    let dual : Dual ℝ := ⟨gradient, ⟨2, #[a], by simp [a]⟩, .constant 1 5⟩
    (multipliers rough gradient dual.jacobian dual.barrier).outcome = .ok (.constant 1 2) ∧
      (∀ y, (ProximalTerm.orthant 1).Minimizer dual.objective y ↔ y = .constant 1 2) ∧
      (∃ summary, (ProximalMomentum.method.solve (innerConfig rough) ⟨dual.objective, .nonnegative⟩ (.constant 1 2)
        7).outcome = .ok summary ∧ summary.state.point = .constant 1 2 ∧ summary.finished = true) ∧
      direction gradient dual.jacobian (.constant 1 2) = .ok (.ofFn ![1, -3]) ∧
      gradient.neg.Closest (fun v => v.size = 2 ∧ a.pairing v ≤ -5) (.ofFn ![1, -3]) := by
  intro a gradient dual
  have aVec : a.vec 2 = ![1, 2] := Coords.vec_ofFn _
  have gVec : gradient.vec 2 = ![-3, -1] := Coords.vec_ofFn _
  have size : a.size = 2 := Coords.size_ofFn _
  have square : a.pairing a = 5 := by
    rw [Coords.pairing_eq size.le, aVec]
    norm_num [dotProduct, Fin.sum_univ_two]
  have slope : gradient.pairing a = -5 := by
    rw [Coords.pairing_eq (Coords.size_ofFn _).le, aVec, gVec]
    norm_num [dotProduct, Fin.sum_univ_two]
  have nonzero : a ≠ .zeros a.size := fun zero => by
    have entries := congrArg (fun y => y.vec 2 0) zero
    rw [size] at entries
    norm_num [aVec] at entries
  have same : gradient.size = a.size := (Coords.size_ofFn _).trans size.symm
  obtain ⟨l, slope', found, _, least, _, runs, d, atDirection, closest⟩ :=
    single_solves_nested rough gradient a 5 dual.jacobian rfl nonzero same
  have present : 0 < dual.barrier.size := Nat.one_pos
  obtain ⟨q, atSingle, quotient⟩ := single_eq_ok same present
  have two : q = 2 := by
    have positive : 0 < a.pairing a := by norm_num [square]
    rw [quotient positive, square, slope]
    change ((5 : ℝ) - -5) / 5 = 2
    norm_num
  rw [two, if_pos zero_le_two] at atSingle
  have form : (multipliers rough gradient dual.jacobian dual.barrier).outcome = .ok (.constant 1 2) :=
    multipliers_of_one rfl rfl atSingle
  obtain rfl := Except.ok.inj (form.symm.trans found)
  have valid : ProximalMomentum.schema.validate (innerConfig rough) = .ok () :=
    ProximalMomentum.validate_eq_ok.mpr (by norm_num [innerConfig, rough])
  obtain ⟨summary, solved, last, finished⟩ := (runs (innerConfig rough) valid).2 7 (by norm_num)
  have atD : d = .ofFn ![1, -3] := by
    refine Coords.eq_of_vec (n := 2) (closest.belongs.1.trans size) (Coords.size_ofFn _) ?_
    have fits : dual.Fits 1 2 := size ▸ fits_single rfl same
    have turned := Constraints.HalfSpace.transpose_mulVec (J := dual.jacobian) rfl ((Coords.constant 1 2).vec 1)
    rw [size] at turned
    rw [fits.vec_direction atDirection, turned, gVec, aVec, Coords.vec_constant, Coords.vec_ofFn]
    funext i
    fin_cases i <;> norm_num
  subst atD
  rw [size] at closest
  exact ⟨form, least, ⟨summary, solved, last, finished⟩, atDirection, closest⟩

end Downhill.DynamicBarrier
