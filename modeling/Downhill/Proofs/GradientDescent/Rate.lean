import Mathlib
import Downhill.Proofs.GradientDescent
import Downhill.Proofs.Paraboloid
import Downhill.Proofs.Run.Agreement

namespace Downhill.GradientDescent

variable {config : Config ℝ} {f : Objective ℝ} {L : ℝ} {n : Nat} {s s' : PointState ℝ}

theorem vec_step (made : step config f s = .ok s') : ∃ g, f.gradient s.point = .ok g ∧
    s'.point.size = s.point.size ∧ s'.point.vec n = s.point.vec n - config.rate • g.vec n := by
  simp only [step, Outcome.bind_eq_ok, Outcome.pure_eq_ok] at made
  obtain ⟨g, atGradient, x, moved, rfl⟩ := made
  refine ⟨g, atGradient, (Coords.size_combine moved).2, ?_⟩
  rw [Coords.vec_advance moved, direction, Coords.vec_neg, smul_neg, sub_eq_add_neg]

theorem validate_eq_ok : schema.validate config = .ok () ↔ 0 < config.rate := by
  simp [schema]

/-- A step falls by half the rate times the squared gradient. -/
theorem step_falls (conforming : f.Conforming n) (smooth : f.Smooth L n) (large : 0 < L)
    (positive : 0 < config.rate) (short : config.rate ≤ 1 / L) (size : s.point.size = n)
    (made : step config f s = .ok s') {v v' slope : ℝ} (here : f.value s.point = .ok v)
    (there : f.value s'.point = .ok v') (steep : f.gradientNorm s.point = .ok slope) :
    v' ≤ v - config.rate / 2 * slope ^ 2 := by
  obtain ⟨g, atGradient, same, moved⟩ := vec_step (n := n) made
  obtain ⟨g', atGradient', rfl⟩ := Objective.gradientNorm_eq_ok.mp steep
  obtain rfl := Except.ok.inj (atGradient.symm.trans atGradient')
  have nonneg : 0 ≤ g.vec n ⬝ᵥ g.vec n := Finset.sum_nonneg fun i _ => mul_self_nonneg _
  have square : g.norm ^ 2 = g.vec n ⬝ᵥ g.vec n := by
    rw [Coords.norm_eq (conforming.size_gradient size atGradient).le, Real.sq_sqrt nonneg]
  have below := smooth s.point s'.point v v' g size (same.trans size) here there atGradient
  have way : s'.point.vec n - s.point.vec n = -config.rate • g.vec n := by
    rw [moved, sub_sub_cancel_left, neg_smul]
  rw [way, dotProduct_smul, smul_dotProduct, dotProduct_smul, smul_eq_mul, smul_eq_mul] at below
  have bend : config.rate * (L * config.rate) ≤ config.rate * 1 := by
    refine mul_le_mul_of_nonneg_left ?_ positive.le
    rwa [mul_comm, ← le_div_iff₀ large]
  have share := mul_le_mul_of_nonneg_right bend nonneg
  rw [square]
  linarith

/-- What falls by the same factor at every step and never below zero is a power of it times what it was. -/
theorem le_pow_of_contracts {e : Nat → ℝ} {q : ℝ} (nonneg : ∀ i, 0 ≤ e i) (shrinks : ∀ i, e (i + 1) ≤ q * e i)
    (i : Nat) : e i ≤ q ^ i * e 0 := by
  rcases le_or_gt 0 q with factor | negative
  · exact le_geom factor i fun k _ => shrinks k
  · -- A negative factor leaves nothing from the start on.
    have zero : ∀ j, e j = 0 := fun j => (nonneg j).antisymm' (nonpos_of_mul_nonneg_right
      ((nonneg (j + 1)).trans (shrinks j)) negative)
    rw [zero, zero, mul_zero]

section

variable {x : Coords ℝ} (conforming : f.Conforming x.size)

include conforming

variable (config) in
theorem measured_after (i : Nat) : ∃ s v slope, method.after config f x () i = .ok (s, ()) ∧ s.point.size = x.size ∧
    f.value s.point = .ok v ∧ f.gradientNorm s.point = .ok slope := by
  obtain ⟨s, reached, size, _⟩ := after_ok config conforming rfl i
  obtain ⟨v, here⟩ := conforming.value s.point size
  obtain ⟨slope, steep⟩ := conforming.gradientNorm_ok size
  exact ⟨s, v, slope, reached, size, here, steep⟩

theorem never_finished (i : Nat) : method.finishedAfter config f x () i = false := by
  obtain ⟨s, reached, _, unfinished⟩ := after_ok config conforming rfl i
  exact (Method.finishedAfter_eq reached).trans unfinished

end

/-- With a rate of at most the inverse of the constant of a smooth objective, the recorded values fall at
every step by half the rate times the squared gradient norm, and over a lower bound that the gradient
dominates they come down geometrically; on a strictly convex quadratic it dominates the height. -/
theorem textbook_rate (config : Config ℝ) (f : Objective ℝ) (x : Coords ℝ) (L : ℝ)
    (conforming : f.Conforming x.size) (smooth : f.Smooth L x.size) (large : 0 < L) (positive : 0 < config.rate)
    (short : config.rate ≤ 1 / L) :
    ∃ values slopes : Nat → ℝ,
      (∀ (ρ : Type) (watch : Watch ℝ ρ) (records : ρ) (budget : Nat),
        (watch.recorder = none →
          ∃ summary, (method.run config f watch () records x budget).1 = .ok summary) ∧
        ∀ summary, (method.run config f watch () records x budget).1 = .ok summary →
          summary.iterations = budget ∧
          ∀ i ≤ budget, summary.history.at? "func_values" i = some (values i) ∧
            summary.history.at? "grad_norm" i = some (slopes i)) ∧
      (∀ i, values (i + 1) ≤ values i - config.rate / 2 * slopes i ^ 2) ∧
      (∀ mu low, f.Above low x.size → f.Dominated mu low x.size →
        ∀ i, values i - low ≤ (1 - config.rate * mu) ^ i * (values 0 - low)) ∧
      ∀ H mu low, f.Paraboloid H x.size → (H.mat x.size x.size).PosDef →
        IsLeast {m | ∃ v, v ≠ 0 ∧ (H.mat x.size x.size).mulVec v = m • v} mu →
        IsLeast {v | ∃ y, y.size = x.size ∧ f.value y = .ok v} low →
        f.Above low x.size ∧ f.Dominated mu low x.size := by
  choose s values slopes reached size here steep using measured_after config conforming
  have falls : ∀ i, values (i + 1) ≤ values i - config.rate / 2 * slopes i ^ 2 := fun i =>
    step_falls conforming smooth large positive short (size i)
      (Work.outcome_checked_eq_ok.mp (Method.step_of_after (reached i) (reached (i + 1))))
      (here i) (here (i + 1)) (steep i)
  refine ⟨values, slopes, fun ρ watch records budget => ⟨fun unrecorded => ?_, fun summary returned => ?_⟩, falls,
    fun mu low above dominated => ?_, fun H mu low paraboloid definite least lowest => ?_⟩
  · have measures : ∀ i s between, method.after config f x () i = .ok (s, between) →
        ∀ quantity ∈ method.tracked f, ∃ v, quantity.2 s = .ok v := by
      intro i s' between there
      cases (reached i).symm.trans there
      exact measured conforming (size i)
    exact (Method.run_ok_iff (validate_eq_ok.mpr positive) unrecorded measures (never_finished conforming)).mpr
      ⟨s budget, (), reached budget⟩
  · have result := Method.run_returned returned
    have whole := result.whole (never_finished conforming)
    exact ⟨whole, fun i within => ⟨result.at?_of_reached (List.mem_cons_self ..) (within.trans_eq whole.symm)
      (reached i) (here i), result.at?_of_reached (List.mem_cons_of_mem _ (List.mem_cons_self ..))
      (within.trans_eq whole.symm) (reached i) (steep i)⟩⟩
  · have contracts : ∀ i, values (i + 1) - low ≤ (1 - config.rate * mu) * (values i - low) := by
      intro i
      obtain ⟨g, atGradient, same⟩ := Objective.gradientNorm_eq_ok.mp (steep i)
      have steepness := dominated _ _ g (size i) (here i) atGradient
      rw [same] at steepness
      have share := mul_le_mul_of_nonneg_left steepness positive.le
      linarith [falls i]
    exact le_pow_of_contracts (fun i => sub_nonneg.mpr (above _ _ (size i) (here i))) contracts
  · have above : f.Above low x.size := fun y v fits found => lowest.2 ⟨y, fits, found⟩
    exact ⟨above, paraboloid.dominated conforming definite.posSemidef
      (fun m v nonzero eigen => least.2 ⟨v, nonzero, eigen⟩) lowest.1 above⟩

/-- The smaller solution of `m ^ 2 - 3 m + 1 = 0`. -/
theorem slanted_least_eigenvalue :
    IsLeast {m | ∃ v, v ≠ 0 ∧ (Table.slanted.mat 2 2).mulVec v = m • v} ((3 - √5) / 2) := by
  have root : √5 ^ 2 = 5 := Real.sq_sqrt (by norm_num)
  constructor
  · refine ⟨![2, 1 - √5], fun zero => absurd (congrFun zero 0) (by norm_num), ?_⟩
    rw [Table.mat_slanted]
    funext i
    fin_cases i <;> simp [Matrix.mulVec, dotProduct, Fin.sum_univ_two] <;> linarith
  · rintro m ⟨v, nonzero, eigen⟩
    have length : 0 < v ⬝ᵥ v := (Finset.sum_nonneg fun i _ => mul_self_nonneg (v i)).lt_of_ne' fun zero =>
      nonzero (dotProduct_self_eq_zero.mp zero)
    have form : m * (v ⬝ᵥ v) = (v 0 + v 1) ^ 2 + v 1 ^ 2 := by
      rw [← Table.slanted_squares, eigen, dotProduct_smul, smul_eq_mul]
    have square : (v 0 + v 1) ^ 2 + v 1 ^ 2 - (3 - √5) / 2 * (v 0 ^ 2 + v 1 ^ 2) =
        (√5 - 1) / 2 * (v 0 + (√5 + 1) / 2 * v 1) ^ 2 := by
      linear_combination (-(v 0 * v 1) / 2 - (√5 + 1) / 8 * v 1 ^ 2) * root
    have above : 1 ≤ √5 := Real.one_le_sqrt.mpr (by norm_num)
    have nonneg : 0 ≤ (√5 - 1) / 2 * (v 0 + (√5 + 1) / 2 * v 1) ^ 2 :=
      mul_nonneg (by linarith) (sq_nonneg _)
    refine le_of_mul_le_mul_right ?_ length
    rw [form, dotProduct, Fin.sum_univ_two, ← sq, ← sq]
    linarith

/-- Three steps towards the center. -/
theorem textbook_rate_slanted : ∃ (values : Nat → ℝ) (summary : Summary ℝ (PointState ℝ) 4),
    (method.run ⟨0.125⟩ .slanted (.none : Watch ℝ Unit) () () (.constant 2 1) 3).1 = .ok summary ∧
      (∀ i ≤ 3, summary.history.at? "func_values" i = some (values i)) ∧
      values 3 ≤ (1 - 0.125 * ((3 - √5) / 2)) ^ 3 * values 0 := by
  have origin : (Coords.zeros 2 : Coords ℝ).size = 2 := Coords.size_constant 2 0
  have high : Table.slanted.height = (Coords.zeros 2 : Coords ℝ).size := Table.height_slanted.trans origin.symm
  have center := Objective.quadratic_isQuadratic high origin.symm
  have definite : (Table.slanted.mat (Coords.zeros 2 : Coords ℝ).size (Coords.zeros 2 : Coords ℝ).size).PosDef :=
    origin.symm ▸ Table.posDef_slanted
  have lowest : IsLeast {v | ∃ y : Coords ℝ, y.size = 2 ∧ Objective.slanted.value y = .ok v} 0 :=
    ⟨⟨.zeros 2, origin, center.value_center⟩, fun v ⟨y, fits, here⟩ =>
      (center.least definite (fits.trans origin.symm) here).1⟩
  obtain ⟨values, slopes, runs, _, rates, quadratic⟩ := textbook_rate ⟨0.125⟩ .slanted (.constant 2 1) 4
    Objective.slanted_conforming Objective.slanted_smooth (by norm_num) (by norm_num) (by norm_num)
  obtain ⟨returns, series⟩ := runs Unit .none () 3
  obtain ⟨summary, returned⟩ := returns rfl
  obtain ⟨above, dominated⟩ := quadratic .slanted ((3 - √5) / 2) 0
    (Objective.quadratic_paraboloid (.zeros 2) Table.height_slanted rfl Table.posDef_slanted.isHermitian)
    Table.posDef_slanted slanted_least_eigenvalue lowest
  have rate := rates _ _ above dominated 3
  rw [sub_zero, sub_zero] at rate
  exact ⟨values, summary, returned, fun i within => ((series summary returned).2 i within).1, rate⟩

end Downhill.GradientDescent
