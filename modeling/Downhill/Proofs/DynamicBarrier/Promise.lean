import Downhill.Proofs.DynamicBarrier.Step
import Downhill.Proofs.ProximalMomentum.Stop

namespace Downhill.DynamicBarrier

section

variable {dual : Dual ℝ} {m n : Nat} {inner : ProximalMomentum.Config ℝ} {v gradient l : Coords ℝ} {t : ℝ}

/-- The gradient at the multipliers is that at the point they were searched from, and what the Hessian makes
of the displacement. -/
theorem Dual.Fits.missed_eq (fits : dual.Fits m n) (start : v.size = m) (size : l.size = m)
    (slope : dual.objective.gradient v = .ok gradient) :
    let J := dual.jacobian.mat m n
    J.mulVec (-dual.gradient.vec n - J.transpose.mulVec (l.vec m)) =
      -dual.barrier.vec m - gradient.vec m - (J * J.transpose).mulVec (l.vec m - v.vec m) := by
  intro J
  obtain ⟨K, product, constant⟩ := fits.constantHessian
  obtain ⟨there, atThere, _⟩ := fits.conforming.gradient l size
  have moved := constant.gradient v l gradient there start size slope atThere
  rw [fits.mulVec_turned atThere, moved, product, sub_sub]

/-- Where the search for the multipliers has stopped, the direction that belongs to them misses what is
demanded by no more than the tolerance allows. -/
theorem Dual.Fits.demand_met (fits : dual.Fits m n)
    (stopped : ProximalMomentum.Stopped inner ⟨dual.objective, .nonnegative⟩ (.orthant m) v gradient t l)
    (i : Fin m) :
    let J := dual.jacobian.mat m n
    let K := J * J.transpose
    J i ⬝ᵥ (-dual.gradient.vec n - J.transpose.mulVec (l.vec m)) ≤
      -dual.barrier.vec m i + inner.eps * (1 + √(K i ⬝ᵥ K i)) := by
  intro J K
  let e := l.vec m - v.vec m
  have close : √(e ⬝ᵥ e) ≤ t * inner.eps := stopped.close
  have far : 0 ≤ √(e ⬝ᵥ e) := Real.sqrt_nonneg _
  have tolerance : 0 ≤ inner.eps := nonneg_of_mul_nonneg_right (far.trans close) stopped.positive
  have shorter : √(e ⬝ᵥ e) ≤ inner.eps := close.trans (mul_le_of_le_one_left tolerance stopped.most)
  -- The projection lets no multiplier fall below the gradient step.
  have slope : -gradient.vec m i ≤ inner.eps := by
    have above := stopped.near.orthant_le stopped.positive i
    have entry : e i ≤ √(e ⬝ᵥ e) := by simpa using Coords.dotProduct_le_sqrt (Pi.single i 1) e
    have bound : t * -gradient.vec m i ≤ t * inner.eps := by
      change v.vec m i + -t * gradient.vec m i ≤ l.vec m i at above
      change l.vec m i - v.vec m i ≤ _ at entry
      linarith
    exact le_of_mul_le_mul_left bound stopped.positive
  have turned : -(K.mulVec e i) ≤ √(K i ⬝ᵥ K i) * inner.eps := by
    have bound := Coords.dotProduct_le_sqrt (-K i) e
    rw [neg_dotProduct, neg_dotProduct_neg] at bound
    exact bound.trans (mul_le_mul_of_nonneg_left shorter (Real.sqrt_nonneg _))
  have missed := congrFun (fits.missed_eq stopped.start stopped.size stopped.slope) i
  change J i ⬝ᵥ _ = -dual.barrier.vec m i - gradient.vec m i - K.mulVec e i at missed
  rw [missed]
  linarith

end

section

variable {config : Config ℝ} {dual : Dual ℝ} {l : Coords ℝ} {m n : Nat}

/-- The nested solve for the multipliers comes to an end within its budget, finished, with these. -/
def Finishes (config : Config ℝ) (dual : Dual ℝ) (l : Coords ℝ) : Prop :=
  ∃ summary, (ProximalMomentum.method.solve (innerConfig config) ⟨dual.objective, .nonnegative⟩
      (.zeros dual.jacobian.height) config.innerBudget.toNat).outcome = .ok summary ∧
    summary.finished = true ∧ summary.state.point = l

theorem Finishes.stopped (finishes : Finishes config dual l) (fits : dual.Fits m n) :
    ∃ v gradient t, ProximalMomentum.Stopped (innerConfig config) ⟨dual.objective, .nonnegative⟩ (.orthant m)
      v gradient t l := by
  obtain ⟨summary, returned, finished, rfl⟩ := finishes
  exact ProximalMomentum.stopped_of_run fits.conforming (dual.expands m) (ProximalTerm.nonnegative_isExact m)
    ((Coords.size_constant _ _).trans fits.high) returned finished

/-- Several constraints are left to the nested solve. -/
theorem Finishes.multipliers_ok (finishes : Finishes config dual l) (several : 2 ≤ dual.jacobian.height) :
    (multipliers config dual.gradient dual.jacobian dual.barrier).outcome = .ok l := by
  obtain ⟨summary, returned, _, rfl⟩ := finishes
  have valid : ProximalMomentum.schema.validate (innerConfig config) = .ok () :=
    Method.valid_of_run (m := ProximalMomentum.method) returned
  rw [multipliers_of_several several]
  exact nested_eq_ok.mpr ⟨valid, summary, returned, rfl⟩

/-- The multipliers of a finished solve are not negative, and their direction meets what is demanded up to the
tolerance. -/
theorem Finishes.demand_met (finishes : Finishes config dual l) (fits : dual.Fits m n) :
    let J := dual.jacobian.mat m n
    let K := J * J.transpose
    (∀ i, 0 ≤ l.vec m i) ∧ ∃ d, direction dual.gradient dual.jacobian l = .ok d ∧ d.size = n ∧
      d.vec n = -dual.gradient.vec n - J.transpose.mulVec (l.vec m) ∧
      ∀ i, J i ⬝ᵥ d.vec n ≤ -dual.barrier.vec m i + config.innerEps * (1 + √(K i ⬝ᵥ K i)) := by
  intro J K
  obtain ⟨v, gradient, t, stopped⟩ := finishes.stopped fits
  obtain ⟨d, found, size⟩ := fits.direction_ok stopped.size
  have value := fits.vec_direction found
  refine ⟨fun i => stopped.near.inside i, d, found, size, value, fun i => ?_⟩
  rw [value]
  exact fits.demand_met stopped i

/-- A nested solve is over after one step where the tolerance is as large as the gradient at the start. -/
theorem Dual.Fits.finishes_of_small {gradient : Coords ℝ}
    (fits : dual.Fits m n) (tolerance : 0 < config.innerEps) (allowed : 1 ≤ config.innerBudget.toNat)
    (slope : dual.objective.gradient (.zeros m) = .ok gradient)
    (small : √(gradient.vec m ⬝ᵥ gradient.vec m) ≤ config.innerEps) : ∃ l, Finishes config dual l := by
  have high := fits.high
  subst high
  have expands := dual.expands dual.jacobian.height
  have proximal := ProximalTerm.nonnegative_isExact dual.jacobian.height
  have size : (Coords.zeros dual.jacobian.height : Coords ℝ).size = dual.jacobian.height := Coords.size_constant _ _
  have valid : ProximalMomentum.schema.validate (innerConfig config) = .ok () :=
    ProximalMomentum.validate_eq_ok.mpr ⟨by norm_num [innerConfig], tolerance⟩
  obtain ⟨s, made⟩ := ProximalMomentum.step_ok (p := ⟨dual.objective, .nonnegative⟩) fits.conforming expands
    proximal valid (ProximalMomentum.sized_start size)
  have finished := ProximalMomentum.finished_of_small_gradient (p := ⟨dual.objective, .nonnegative⟩)
    fits.conforming expands proximal valid size Coords.vec_zeros.ge slope small made
  obtain ⟨summary, returned, _, marked⟩ := ProximalMomentum.solve_of_first (p := ⟨dual.objective, .nonnegative⟩)
    fits.conforming expands proximal valid size allowed made finished
  exact ⟨_, summary, returned, marked, rfl⟩

end

theorem validate_eq_ok {config : Config ℝ} : schema.validate config = .ok () ↔
    0 < config.rate ∧ 0 < config.alpha ∧ 0 < config.beta ∧ 0 < config.innerEps ∧ 0 < config.innerBudget := by
  simp [schema]

/-- Where the constraints are affine and the barrier is a multiple of their values, a finished solve leads to a
point with values as small as that multiple lets them remain, up to the tolerance. -/
theorem Finishes.step_ok {config : Config ℝ} {p : Constrained ℝ} {n : Nat} {J : Table ℝ} {s : MultiplierState ℝ}
    {gradient before l : Coords ℝ} (valid : schema.validate config = .ok ()) (scaled : config.barrier = .values)
    (objective : p.objective.Conforming n) (constraints : p.constraints.Conforming n)
    (affine : p.constraints.Affine J n) (several : 2 ≤ p.constraints.count) (size : s.point.size = n)
    (atGradient : p.objective.gradient s.point = .ok gradient)
    (atValues : p.constraints.values s.point = .ok before)
    (finishes : Finishes config ⟨gradient, J, demands config before J⟩ l) :
    let m := p.constraints.count
    let K := J.mat m n * (J.mat m n).transpose
    ∃ s' after, (step config p s).outcome = .ok s' ∧ s'.multipliers = l ∧
      p.constraints.values s'.point = .ok after ∧ ∀ i, after.vec m i ≤
        (1 - config.rate * config.alpha) * before.vec m i +
          config.rate * config.innerEps * (1 + √(K i ⬝ᵥ K i)) := by
  intro m K
  have atJacobian := affine.jacobian s.point size
  obtain ⟨high, wide⟩ := constraints.shape_jacobian size atJacobian
  have demanded : demands config before J = before.scale config.alpha := by rw [demands, scaled]
  have fits : Dual.Fits ⟨gradient, J, demands config before J⟩ m n := by
    refine ⟨objective.size_gradient size atGradient, high, wide, ?_⟩
    rw [demanded]
    exact (Coords.size_scale before _).trans (constraints.size_values size atValues)
  obtain ⟨_, d, found, dSize, _, met⟩ := finishes.demand_met fits
  obtain ⟨y, moved, ySize⟩ := Coords.advance_ok size dSize config.rate
  obtain ⟨after, there, _⟩ := constraints.values y ySize
  refine ⟨{ s with point := y, multipliers := l }, after, ?_, rfl, there, fun i => ?_⟩
  · simp only [step, Work.outcome_bind_eq_ok, Work.outcome_checked_eq_ok, Work.outcome_pure_eq_ok]
    exact ⟨gradient, atGradient, J, atJacobian, before, atValues, l,
      finishes.multipliers_ok (several.trans_eq high.symm), d, found, y, moved, rfl⟩
  · have values := congrFun (affine.values s.point y before after size ySize atValues there) i
    have along : (J.mat m n).mulVec (y.vec n - s.point.vec n) i = config.rate * (J.mat m n i ⬝ᵥ d.vec n) := by
      rw [Coords.vec_advance moved, add_sub_cancel_left, Matrix.mulVec_smul]
      rfl
    have rate := (validate_eq_ok.mp valid).1
    have bound := mul_le_mul_of_nonneg_left (met i) rate.le
    have demand : (demands config before J).vec m i = config.alpha * before.vec m i := by
      rw [demanded, Coords.vec_scale, Pi.smul_apply, smul_eq_mul]
    rw [demand] at bound
    rw [values, Pi.add_apply, along]
    linarith

/-- Where the nested solve has finished, no multiplier is negative, and the direction takes every constraint
down as fast as is demanded, up to the tolerance times one more than the length of its row of `J Jᵀ`; so a
step on affine constraints leaves of every value what its rate leaves, up to the same. -/
theorem promise_kept (config : Config ℝ) :
    (∀ (gradient barrier l : Coords ℝ) (J : Table ℝ), 2 ≤ J.height → gradient.size = J.width →
      barrier.size = J.height → Finishes config ⟨gradient, J, barrier⟩ l →
      let m := J.height
      let n := J.width
      let K := J.mat m n * (J.mat m n).transpose
      (multipliers config gradient J barrier).outcome = .ok l ∧ (∀ i, 0 ≤ l.vec m i) ∧
        ∃ d, direction gradient J l = .ok d ∧
          d.vec n = -gradient.vec n - (J.mat m n).transpose.mulVec (l.vec m) ∧
          ∀ i, J.mat m n i ⬝ᵥ d.vec n ≤
            -barrier.vec m i + config.innerEps * (1 + √(K i ⬝ᵥ K i))) ∧
    (∀ (p : Constrained ℝ) (n : Nat) (J : Table ℝ) (s : MultiplierState ℝ) (gradient before l : Coords ℝ),
      schema.validate config = .ok () → config.barrier = .values → p.objective.Conforming n →
      p.constraints.Conforming n → p.constraints.Affine J n → 2 ≤ p.constraints.count → s.point.size = n →
      p.objective.gradient s.point = .ok gradient → p.constraints.values s.point = .ok before →
      Finishes config ⟨gradient, J, demands config before J⟩ l →
      let m := p.constraints.count
      let K := J.mat m n * (J.mat m n).transpose
      ∃ s' after, (step config p s).outcome = .ok s' ∧ s'.multipliers = l ∧
        p.constraints.values s'.point = .ok after ∧ ∀ i, after.vec m i ≤
          (1 - config.rate * config.alpha) * before.vec m i +
            config.rate * config.innerEps * (1 + √(K i ⬝ᵥ K i))) := by
  refine ⟨fun gradient barrier l J several left right finishes => ?_,
    fun p n J s gradient before l valid scaled objective constraints affine several size atGradient atValues
      finishes => finishes.step_ok valid scaled objective constraints affine several size atGradient atValues⟩
  obtain ⟨nonneg, d, found, _, value, met⟩ := finishes.demand_met ⟨left, rfl, rfl, right⟩
  exact ⟨finishes.multipliers_ok several, nonneg, d, found, value, met⟩

/-- Half the squared length where no coordinate is above minus one. -/
noncomputable def walled (n : Nat) : Constrained ℝ :=
  ⟨.halfSquare n, .linear (.identity n) (.constant n (-1))⟩

/-- Multipliers that need not be exact. -/
noncomputable def rough : Config ℝ :=
  ⟨0.5, 1, 1, .values, 1.5, 1⟩

theorem validate_rough : schema.validate rough = .ok () :=
  validate_eq_ok.mpr (by norm_num [rough])

/-- Multipliers to within a tenth, where half the values are demanded. -/
noncomputable def firm : Config ℝ :=
  ⟨0.5, 0.5, 1, .values, 0.1, 1⟩

theorem validate_firm : schema.validate firm = .ok () :=
  validate_eq_ok.mpr (by norm_num [firm])

/-- Where every descent is 0.9 and every value is 1.9, the nested solve finishes at its start. -/
theorem finishes_firm {gradient before : Coords ℝ} (gSize : gradient.size = 2) (bSize : before.size = 2)
    (descent : gradient.vec 2 = fun _ => 0.9) (beyond : before.vec 2 = fun _ => 1.9) :
    ∃ l, Finishes firm ⟨gradient, .identity 2, demands firm before (.identity 2)⟩ l := by
  have fits : Dual.Fits ⟨gradient, .identity 2, demands firm before (.identity 2)⟩ 2 2 :=
    ⟨gSize, Table.height_identity 2, Table.width_identity 2, (Coords.size_scale before _).trans bSize⟩
  obtain ⟨slope, atSlope, _⟩ := fits.conforming.gradient (.zeros 2) (Coords.size_constant 2 _)
  have length : slope.vec 2 ⬝ᵥ slope.vec 2 = 0.005 := by
    rw [fits.vec_gradient atSlope]
    norm_num [descent, demands, firm, Coords.vec_scale, beyond, dotProduct]
  have small : √(slope.vec 2 ⬝ᵥ slope.vec 2) ≤ firm.innerEps :=
    Real.sqrt_le_iff.mpr (length ▸ by norm_num [firm])
  have tolerance : 0 < firm.innerEps := by norm_num [firm]
  exact fits.finishes_of_small tolerance (by decide) atSlope small

/-- The step from 1.9 beyond both half-lines, where going straight down is a little less than what is demanded. -/
theorem promise_kept_walled : ∃ (s' : MultiplierState ℝ) (before after : Coords ℝ),
    (step firm (walled 2) ⟨.constant 2 0.9, .zeros 2, false⟩).outcome = .ok s' ∧
      (walled 2).constraints.values (.constant 2 0.9) = .ok before ∧
      (walled 2).constraints.values s'.point = .ok after ∧
      ∀ i, 0 ≤ s'.multipliers.vec 2 i ∧ before.vec 2 i = 1.9 ∧ after.vec 2 i ≤ 1.525 := by
  have fitting : (Coords.constant 2 0.9 : Coords ℝ).size = 2 := Coords.size_constant _ _
  have two : (Table.identity 2 : Table ℝ).height = 2 := Table.height_identity 2
  have high : (Table.identity 2 : Table ℝ).height = (Coords.constant 2 (-1) : Coords ℝ).size :=
    two.trans (Coords.size_constant 2 _).symm
  have objective : (walled 2).objective.Conforming 2 := Objective.halfSquare_conforming 2
  have constraints : (walled 2).constraints.Conforming 2 :=
    Constraints.linear_conforming high (Table.width_identity 2)
  obtain ⟨gradient, atGradient, gSize⟩ := objective.gradient (.constant 2 0.9) fitting
  obtain ⟨before, atValues, bSize⟩ := constraints.values (.constant 2 0.9) fitting
  have descent : gradient.vec 2 = fun _ => 0.9 :=
    (Objective.halfSquare_gradients atGradient).trans Coords.vec_constant
  have beyond : before.vec 2 = fun _ => 1.9 := by
    rw [Constraints.linear_values two (Table.width_identity 2) atValues]
    funext i
    norm_num
  obtain ⟨l, finishes⟩ := finishes_firm gSize bSize descent beyond
  obtain ⟨_, nonneg, _⟩ := (promise_kept firm).1 gradient (demands firm before (.identity 2)) l (.identity 2)
    two.ge gSize ((Coords.size_scale before _).trans (bSize.trans two.symm)) finishes
  obtain ⟨s', after, made, rfl, there, bound⟩ := (promise_kept firm).2 (walled 2) 2 (.identity 2)
    ⟨.constant 2 0.9, .zeros 2, false⟩ gradient before l validate_firm rfl objective constraints
    (Constraints.linear_affine high (Table.width_identity 2)) (Coords.size_constant 2 _).ge fitting atGradient
    atValues finishes
  refine ⟨s', before, after, made, atValues, there, fun i => ⟨nonneg (i.cast two.symm), congrFun beyond i, ?_⟩⟩
  have entry : (1 : Matrix (Fin 2) (Fin 2) ℝ) i ⬝ᵥ (1 : Matrix (Fin 2) (Fin 2) ℝ) i = 1 := by
    change ∑ j, (1 : Matrix (Fin 2) (Fin 2) ℝ) i j * (1 : Matrix (Fin 2) (Fin 2) ℝ) i j = 1
    simp [Matrix.one_apply]
  have left : after.vec 2 i ≤ (1 - firm.rate * firm.alpha) * before.vec 2 i + firm.rate * firm.innerEps *
      (1 + √(((Table.identity 2).mat 2 2 * ((Table.identity 2).mat 2 2).transpose) i ⬝ᵥ
        ((Table.identity 2).mat 2 2 * ((Table.identity 2).mat 2 2).transpose) i)) := bound i
  rw [Table.mat_identity, Matrix.transpose_one, Matrix.one_mul, entry, beyond] at left
  refine left.trans ?_
  norm_num [firm]

end Downhill.DynamicBarrier
