import Downhill.Proofs.InteriorPoint.Newton
import Downhill.Proofs.Run.Semantics

namespace Downhill.InteriorPoint

section

variable {α : Type} [Scalar α] {config : Config α} {p : Constrained α} {s s' : MultiplierState α}

/-- Moved by the share, the point is strictly feasible, and the residual there has shrunk by the
required fraction of the share from its length at the start. -/
def Qualifies (config : Config α) (p : Constrained α) (s : MultiplierState α) (dx dl : Coords α)
    (start t share : α) : Prop :=
  ∃ x l r, s.point.advance share dx = .ok x ∧ p.constraints.strictlyFeasible x = .ok true ∧
    s.multipliers.advance share dl = .ok l ∧ residual p x l t = .ok r ∧
    r.norm ≤ (1 - config.alpha * share) * start

theorem accepts_attempt_iff (comm : ∀ v w : α, v * w = w * v) {dx dl : Coords α} {start t share : α} :
    Backtracking.Accepts (attempt config p s dx dl start t) share ↔
      Qualifies config p s dx dl start t share := by
  constructor
  · rintro ⟨⟨⟩, made⟩
    obtain ⟨x, l, r, atPoint, feasible, atMultipliers, atResidual, small⟩ := attempt_accepts made
    rw [← Coords.advance_eq_add_scale comm] at atPoint atMultipliers
    exact ⟨x, l, r, atPoint, feasible, atMultipliers, atResidual, small⟩
  · rintro ⟨x, l, r, atPoint, feasible, atMultipliers, atResidual, small⟩
    rw [Coords.advance_eq_add_scale comm] at atPoint atMultipliers
    have trial : attempt config p s dx dl start t share =
        .ok ((), decide (r.norm ≤ (1 - config.alpha * share) * start)) := by
      simp only [attempt, atPoint, feasible, atMultipliers, atResidual, bind, Except.bind, if_true]
      rfl
    exact ⟨(), by rw [trial, decide_eq_true small]⟩

/-- The right side of the Newton system is the residual at the state. -/
theorem Reading.residual_eq (r : Reading p s) {t : α} {centrality : Coords α}
    (made : centralityResidual r.values s.multipliers t = .ok centrality) :
    residual p s.point s.multipliers t = .ok (r.dual.append centrality) := by
  simp only [residual, Outcome.bind_eq_ok, Outcome.pure_eq_ok]
  exact ⟨r.values, r.values_eq, r.gradient, r.gradient_eq, r.jacobian, r.jacobian_eq, r.dual, r.dual_eq,
    centrality, made, rfl⟩

theorem moves_of_unfinished (made : (step config p s).outcome = .ok s') (unfinished : s'.finished = false) :
    ∃ (r : Reading p s) (centrality dx dl : Coords α) (share : α),
      Moves config p s r centrality dx dl share s' := by
  obtain ⟨r, ⟨_, rfl⟩ | ⟨_, centrality, dx, dl, share, moves⟩⟩ := step_cases made
  · cases unfinished
  · exact ⟨r, centrality, dx, dl, share, moves⟩

end

variable {config : Config ℝ} {p : Constrained ℝ} {s s' : MultiplierState ℝ}

/-- The share of a move is the first of the trials that qualifies; where none does, it is zero. -/
theorem Moves.share_cases {r : Reading p s} {centrality dx dl : Coords ℝ} {share : ℝ}
    (moves : Moves config p s r centrality dx dl share s') :
    let trial := fun j : Nat => 0.99 * maxDualStep s.multipliers dl * config.beta ^ j
    let qualifies := Qualifies config p s dx dl (r.dual.append centrality).norm (r.target config)
    (∃ j ≤ 100, share = trial j ∧ qualifies share ∧ ∀ i < j, ¬ qualifies (trial i)) ∨
      ((∀ j ≤ 100, ¬ qualifies (trial j)) ∧ share = 0) := by
  obtain ⟨last, ends, found⟩ := stepSize_cases moves.share_eq
  exact ends.step_cases (fun _ => accepts_attempt_iff mul_comm) found

/-- Where the first trial qualifies it is the share. -/
theorem Moves.share_of_first {r : Reading p s} {centrality dx dl : Coords ℝ} {share : ℝ}
    (moves : Moves config p s r centrality dx dl share s')
    (good : Qualifies config p s dx dl (r.dual.append centrality).norm (r.target config)
      (0.99 * maxDualStep s.multipliers dl)) : share = 0.99 * maxDualStep s.multipliers dl := by
  have first : 0.99 * maxDualStep s.multipliers dl * config.beta ^ 0 = 0.99 * maxDualStep s.multipliers dl := by
    rw [pow_zero, mul_one]
  rw [← first] at good
  rcases moves.share_cases with ⟨j, _, same, _, early⟩ | ⟨never, _⟩
  · cases j with
    | zero => exact same.trans first
    | succ j => exact absurd good (early 0 (Nat.succ_pos j))
  · exact absurd good (never 0 (Nat.zero_le _))

/-- Where a step moves by a share that qualifies, the new state is what qualified. -/
theorem Moves.descends {r : Reading p s} {centrality dx dl : Coords ℝ} {share : ℝ}
    (moves : Moves config p s r centrality dx dl share s') {start t : ℝ}
    (good : Qualifies config p s dx dl start t share) :
    p.constraints.strictlyFeasible s'.point = .ok true ∧
      ∃ merit, residual p s'.point s'.multipliers t = .ok merit ∧
        merit.norm ≤ (1 - config.alpha * share) * start := by
  obtain ⟨x, l, merit, atPoint, feasible, atMultipliers, atResidual, small⟩ := good
  obtain rfl : s'.point = x := Except.ok.inj (moves.point_eq.symm.trans atPoint)
  obtain rfl : s'.multipliers = l := Except.ok.inj (moves.multipliers_eq.symm.trans atMultipliers)
  exact ⟨feasible, merit, atResidual, small⟩

theorem Moves.stays {r : Reading p s} {centrality dx dl : Coords ℝ}
    (moves : Moves config p s r centrality dx dl 0 s') :
    s'.point = s.point ∧ s'.multipliers = s.multipliers :=
  ⟨Coords.advance_zero moves.point_eq, Coords.advance_zero moves.multipliers_eq⟩

theorem Interior.eta_pos {n : Nat} (inside : Interior p.constraints n s) (r : Reading p s) : 0 < r.eta := by
  obtain ⟨values, atValues, negative⟩ := strictlyFeasible_eq_ok.mp inside.strict
  obtain rfl : r.values = values := Except.ok.inj (r.values_eq.symm.trans atValues)
  obtain ⟨count, _⟩ := (gap_eq_ok rfl).mp r.gap_eq
  have nonzero : r.values.size ≠ 0 := count.symm.trans inside.count ▸ inside.constrained
  exact InteriorPoint.gap_pos nonzero rfl negative inside.positive r.gap_eq

/-- Without a recorder nothing disturbs a run on a conforming problem. -/
theorem undisturbed {ρ : Type} {watch : Watch ℝ ρ} (unrecorded : watch.recorder = none)
    (valid : schema.validate config = .ok ()) {x : Coords ℝ} (objective : p.objective.Conforming x.size)
    (constraints : p.constraints.Conforming x.size) {records : ρ} {budget : Nat} :
    method.Undisturbed config p watch x () records budget := by
  refine Method.undisturbed_of_unrecorded unrecorded fun i s _ reached quantity member => ?_
  have inside := interior_of_after rfl valid reached
  rcases List.mem_cons.mp member with rfl | measured
  · exact objective.value s.point inside.dimension
  rcases List.mem_cons.mp measured with rfl | last
  · obtain ⟨values, eta, atValues, _, _, atGap, _⟩ := inside.gap_pos constraints
    exact ⟨eta, Outcome.bind_eq_ok.mpr ⟨values, atValues, atGap⟩⟩
  · obtain rfl := List.mem_singleton.mp last
    obtain ⟨gradient, atGradient, size⟩ := objective.gradient s.point inside.dimension
    obtain ⟨J, atJacobian, high, wide⟩ := constraints.jacobian s.point inside.dimension
    obtain ⟨dual, atDual, _⟩ := dualResidual_ok size wide (inside.count.trans high.symm)
    refine ⟨dual.norm, ?_⟩
    simp only [residualMeasure, Outcome.bind_eq_ok, Outcome.pure_eq_ok]
    exact ⟨gradient, atGradient, J, atJacobian, dual, atDual, rfl⟩

/-- Half the squared length where no coordinate exceeds one. -/
noncomputable def boxed (n : Nat) : Constrained ℝ :=
  ⟨.halfSquare n, .linear (.identity n) (.constant n 1)⟩

/-- Tolerances that the origin of a box does not meet. -/
noncomputable def tight : Config ℝ :=
  ⟨10.0, 0.1, 0.1, 0.1, 0.5⟩

/-- The state that the step from the origin of a box leads to. -/
noncomputable def advanced : MultiplierState ℝ :=
  ⟨.constant 1 (-0.0495), .constant 1 0.0595, false⟩

theorem tight_valid : schema.validate tight = .ok () :=
  validate_eq_ok.mpr (by norm_num [tight])

theorem boxed_conforming (n : Nat) : (boxed n).constraints.Conforming n :=
  Constraints.linear_conforming ((Table.height_identity n).trans (Coords.size_constant n _).symm)
    (Table.width_identity n)

theorem boxed_count : (boxed 1).constraints.count = 1 :=
  Coords.size_constant 1 1

theorem boxed_started {config : Config ℝ} : method.after config (boxed 1) (.zeros 1) () 0 =
    .ok (⟨.zeros 1, .constant 1 1, false⟩, ()) := by
  have strict : (boxed 1).constraints.strictlyFeasible (.zeros 1) = .ok true :=
    strictlyFeasible_of_below (Coords.size_constant _ _) (Coords.size_constant _ _) fun _ => by simp
  exact Method.after_zero_eq_ok.mpr ⟨start_of_strict Nat.one_ne_zero strict, rfl⟩

theorem boxed_values {x values : Coords ℝ} (made : (boxed 1).constraints.values x = .ok values) :
    values.vec 1 = fun _ => x.vec 1 0 - 1 := by
  rw [Constraints.linear_values (Table.height_identity 1) (Table.width_identity 1) made, Table.mat_identity,
    Matrix.one_mulVec]
  funext i
  rw [Fin.eq_zero i]
  simp

section

variable {s s' : MultiplierState ℝ} (fits : s.point.size = 1)

include fits

theorem exists_boxed_reading (count : s.multipliers.size = 1) : Nonempty (Reading (boxed 1) s) := by
  obtain ⟨values, atValues, valuesSize⟩ := (boxed_conforming 1).values s.point fits
  obtain ⟨gradient, atGradient, gradientSize⟩ := (Objective.halfSquare_conforming 1).gradient s.point fits
  obtain ⟨curvature, atCurvature, _⟩ := (boxed_conforming 1).curvature s.point s.multipliers fits count
  obtain ⟨dual, atDual, _⟩ := dualResidual_ok gradientSize (Table.width_identity 1)
    (count.trans (Table.height_identity 1).symm)
  have atGap := (gap_eq_ok (valuesSize.trans boxed_count)).mpr ⟨count, rfl⟩
  exact ⟨⟨values, .identity 1, .identity 1, gradient, curvature, _, dual, atValues, rfl, rfl, atGradient,
    atCurvature, atGap, atDual⟩⟩

theorem boxed_derivatives (r : Reading (boxed 1) s) :
    r.hessian = .identity 1 ∧ r.jacobian = .identity 1 ∧ r.curvature = .zeros 1 1 := by
  have curvature := Except.ok.inj r.curvature_eq
  rw [fits] at curvature
  exact ⟨(Except.ok.inj r.hessian_eq).symm, (Except.ok.inj r.jacobian_eq).symm, curvature.symm⟩

theorem boxed_read (r : Reading (boxed 1) s) : r.values.size = 1 ∧ r.dual.size = 1 ∧
    (r.values.vec 1 = fun _ => s.point.vec 1 0 - 1) ∧ r.eta = (1 - s.point.vec 1 0) * s.multipliers.vec 1 0 ∧
    r.dual.vec 1 = fun _ => s.point.vec 1 0 + s.multipliers.vec 1 0 := by
  have valuesSize : r.values.size = 1 := ((boxed_conforming 1).size_values fits r.values_eq).trans boxed_count
  have values := boxed_values r.values_eq
  obtain ⟨_, eta⟩ := (gap_eq_ok valuesSize).mp r.gap_eq
  obtain ⟨_, jacobian, _⟩ := boxed_derivatives fits r
  obtain ⟨dualSize, dual⟩ :=
    vec_dualResidual (jacobian ▸ Table.height_identity 1) (jacobian ▸ Table.width_identity 1)
    r.dual_eq
  refine ⟨valuesSize, dualSize.trans ((Objective.halfSquare_conforming 1).size_gradient fits r.gradient_eq),
    values, ?_, ?_⟩
  · rw [eta, values]
    simp only [dotProduct, Fin.sum_univ_one]
    ring
  · rw [dual, Objective.halfSquare_gradients r.gradient_eq, jacobian, Table.mat_identity, Matrix.vecMul_one]
    funext i
    rw [Fin.eq_zero i, Pi.add_apply]

end

theorem boxed_direction (r : Reading (boxed 1) ⟨.zeros 1, .constant 1 1, false⟩) {centrality : Coords ℝ}
    (dualSize : r.dual.size = 1) (centralitySize : centrality.size = 1) :
    ∃ dx dl, (direction r.hessian r.curvature r.jacobian r.values (.constant 1 1) r.dual
      centrality).outcome = .ok (dx, dl) ∧ dx.size = 1 ∧ dl.size = 1 := by
  obtain ⟨valuesSize, _, minus, _⟩ := boxed_read (Coords.size_constant 1 0) r
  obtain ⟨hessian, jacobian, curvature⟩ := boxed_derivatives (Coords.size_constant 1 0) r
  rw [hessian, jacobian, curvature]
  obtain ⟨sum, atSum, tall, square, entries⟩ := Table.add_ok (Table.height_identity 1)
    (Table.width_identity 1) (Table.height_zeros 1 1) (Table.width_zeros 1 1)
  obtain ⟨M, atSystem, high, wide, blocks⟩ := system_ok tall square (Table.height_identity 1)
    (Table.width_identity 1) valuesSize (Coords.size_constant 1 1)
  have two : M.mat 2 2 = !![1, 1; -1, 1] := by
    change M.mat (1 + 1) (1 + 1) = _
    have left : finSumFinEquiv.symm (0 : Fin (1 + 1)) = Sum.inl 0 := rfl
    have right : finSumFinEquiv.symm (1 : Fin (1 + 1)) = Sum.inr 0 := rfl
    rw [blocks, minus, entries, Table.mat_identity, Table.mat_zeros, ← Matrix.ext_iff]
    simp [Fin.forall_fin_two, left, right]
  obtain ⟨E, made⟩ := Table.eliminate_of_factor high wide fun B same => by
    have entries : B.matrix = !![1, 1; -1, 1] := same.trans two
    refine Elimination.factor_of_two (Fin.forall_fin_two.mpr ⟨?_, ?_⟩) ?_
    · have entry : B 0 0 = 1 := congrFun (congrFun entries 0) 0
      rw [entry, abs_one]
    · have entry : B 1 0 = -1 := congrFun (congrFun entries 1) 0
      rw [entry, abs_neg, abs_one]
    · rw [entries]
      norm_num [Matrix.det_fin_two, Elimination.pivotFloor]
  exact direction_ok atSum atSystem made (Table.height_identity 1) high dualSize centralitySize

/-- The length of the residual at any point and any multiplier. -/
theorem boxed_residual {x l merit : Coords ℝ} {t : ℝ} (fits : x.size = 1) (count : l.size = 1)
    (made : residual (boxed 1) x l t = .ok merit) : merit.norm =
      √((x.vec 1 0 + l.vec 1 0) ^ 2 + (l.vec 1 0 * (1 - x.vec 1 0) - 1 / t) ^ 2) := by
  obtain ⟨values, gradient, J, atValues, atGradient, atJacobian, length⟩ :=
    norm_residual (Objective.halfSquare_conforming 1) (boxed_conforming 1) boxed_count fits count made
  obtain rfl : Table.identity 1 = J := Except.ok.inj atJacobian
  rw [length, boxed_values atValues, Objective.halfSquare_gradients atGradient, Table.mat_identity,
    Matrix.vecMul_one]
  congr 1
  simp only [dotProduct, Fin.sum_univ_one, Pi.add_apply]
  ring

/-- The direction from the origin. -/
theorem tight_directions {r : Reading (boxed 1) ⟨.zeros 1, .constant 1 1, false⟩} {centrality dx dl : Coords ℝ}
    (atCentrality : centralityResidual r.values (.constant 1 1) (r.target tight) = .ok centrality)
    (atDirection : (direction r.hessian r.curvature r.jacobian r.values (.constant 1 1) r.dual centrality).outcome =
      .ok (dx, dl)) : r.target tight = 10 ∧ dx.vec 1 0 = -0.05 ∧ dl.vec 1 0 = -0.95 := by
  obtain ⟨valuesSize, dualSize, values, eta, dual⟩ := boxed_read (Coords.size_constant 1 0) r
  rw [Coords.vec_zeros, Coords.vec_constant] at eta dual
  rw [Coords.vec_zeros] at values
  have target : r.target tight = 10 := by
    rw [Reading.target, eta, Coords.size_constant]
    norm_num [tight]
  have centred := vec_centralityResidual (Coords.size_constant 1 1) atCentrality 0
  rw [target, values, Coords.vec_constant] at centred
  obtain ⟨hessian, jacobian, curvature⟩ := boxed_derivatives (Coords.size_constant 1 0) r
  obtain ⟨upper, lower⟩ := direction_solves (n := 1) (m := 1) atDirection (hessian ▸ Table.height_identity 1)
    (hessian ▸ Table.width_identity 1) (curvature ▸ Table.height_zeros 1 1) (curvature ▸ Table.width_zeros 1 1)
    (jacobian ▸ Table.height_identity 1) (jacobian ▸ Table.width_identity 1) valuesSize (Coords.size_constant 1 1)
    dualSize
  have above := congrFun upper 0
  have below := congrFun lower 0
  rw [hessian, jacobian, curvature, Table.mat_identity, Table.mat_zeros, dual] at above
  rw [jacobian, Table.mat_identity, values, Coords.vec_constant, Pi.neg_apply, centred] at below
  norm_num at above below
  refine ⟨target, ?_, ?_⟩
  · linarith
  · linarith

section

variable {r : Reading (boxed 1) ⟨.zeros 1, .constant 1 1, false⟩} {centrality dx dl : Coords ℝ} {share : ℝ}
  {s' : MultiplierState ℝ}
  (moves : Moves tight (boxed 1) ⟨.zeros 1, .constant 1 1, false⟩ r centrality dx dl share s')

include moves

/-- Almost the whole way the residual becomes much smaller. -/
theorem tight_qualifies : Qualifies tight (boxed 1) ⟨.zeros 1, .constant 1 1, false⟩ dx dl
    (r.dual.append centrality).norm (r.target tight) 0.99 := by
  obtain ⟨target, across, back⟩ := tight_directions moves.centrality_eq moves.direction_eq
  have start : 1 ≤ (r.dual.append centrality).norm := by
    rw [boxed_residual (x := .zeros 1) (Coords.size_constant 1 0) (Coords.size_constant 1 1)
      (r.residual_eq moves.centrality_eq), target, Coords.vec_zeros, Coords.vec_constant]
    exact Real.one_le_sqrt.mpr (by norm_num)
  obtain ⟨x, atPoint, size⟩ :=
    Coords.advance_ok (Coords.size_constant 1 0) (Coords.size_combine moves.point_eq).1.symm 0.99
  obtain ⟨l, atMultipliers, count⟩ :=
    Coords.advance_ok (Coords.size_constant 1 1) (Coords.size_combine moves.multipliers_eq).1.symm 0.99
  have place : x.vec 1 0 = -0.0495 := by
    rw [Coords.vec_advance atPoint]
    norm_num [across]
  have weight : l.vec 1 0 = 0.0595 := by
    rw [Coords.vec_advance atMultipliers]
    norm_num [back]
  have strict : (boxed 1).constraints.strictlyFeasible x = .ok true :=
    strictlyFeasible_of_below size (Coords.size_constant _ _) fun i => by
      rw [Fin.eq_zero i, place, Coords.vec_constant]
      norm_num
  obtain ⟨merit, atMerit⟩ := residual_ok (Objective.halfSquare_conforming 1) (boxed_conforming 1) size
    (count.trans boxed_count.symm) (r.target tight)
  refine ⟨x, l, merit, atPoint, strict, atMultipliers, atMerit, ?_⟩
  have small : merit.norm ≤ 1 / 10 := by
    rw [boxed_residual size count atMerit, target, place, weight]
    exact Real.sqrt_le_iff.mpr ⟨by norm_num, by norm_num⟩
  have factor : (1 : ℝ) - tight.alpha * 0.99 = 0.901 := by norm_num [tight]
  rw [factor]
  linarith

theorem tight_share : share = 0.99 := by
  obtain ⟨_, _, back⟩ := tight_directions moves.centrality_eq moves.direction_eq
  have largest : maxDualStep (.constant 1 1) dl = 1 :=
    maxDualStep_eq_one (Coords.size_constant 1 1) (Coords.size_combine moves.multipliers_eq).1.symm fun i => by
      rw [Fin.eq_zero i, back, Coords.vec_constant]
      norm_num
  have whole : 0.99 * maxDualStep (.constant 1 1) dl = 0.99 := by rw [largest, mul_one]
  exact (moves.share_of_first (whole.symm ▸ tight_qualifies moves)).trans whole

theorem tight_state : s' = advanced := by
  obtain ⟨_, across, back⟩ := tight_directions moves.centrality_eq moves.direction_eq
  obtain ⟨_, pointSize⟩ := Coords.size_combine moves.point_eq
  obtain ⟨_, count⟩ := Coords.size_combine moves.multipliers_eq
  have point : s'.point = advanced.point := by
    refine Coords.eq_of_vec (pointSize.trans (Coords.size_constant 1 _)) (Coords.size_constant 1 _)
      (funext fun i => ?_)
    rw [Coords.vec_advance moves.point_eq, tight_share moves, Fin.eq_zero i]
    norm_num [across, advanced]
  have multipliers : s'.multipliers = advanced.multipliers := by
    refine Coords.eq_of_vec (count.trans (Coords.size_constant 1 _)) (Coords.size_constant 1 _) (funext fun i => ?_)
    rw [Coords.vec_advance moves.multipliers_eq, tight_share moves, Fin.eq_zero i]
    norm_num [back, advanced]
  obtain ⟨y, l, finished⟩ := s'
  rw [advanced, MultiplierState.mk.injEq]
  exact ⟨point, multipliers, moves.finished_eq⟩

end

/-- The step from the origin of the box. -/
theorem step_tight : (step tight (boxed 1) ⟨.zeros 1, .constant 1 1, false⟩).outcome = .ok advanced := by
  obtain ⟨r⟩ := exists_boxed_reading (s := ⟨.zeros 1, .constant 1 1, false⟩) (Coords.size_constant 1 0)
    (Coords.size_constant 1 1)
  obtain ⟨valuesSize, dualSize, _, eta, _⟩ := boxed_read (Coords.size_constant 1 0) r
  have apart : ¬ r.Converged tight := by
    rintro ⟨_, small⟩
    rw [eta, Coords.vec_zeros, Coords.vec_constant] at small
    norm_num [tight] at small
  obtain ⟨centrality, atCentrality, centralitySize⟩ :=
    centralityResidual_ok valuesSize (Coords.size_constant 1 1) (r.target tight)
  obtain ⟨dx, dl, atDirection, dxSize, dlSize⟩ := boxed_direction r dualSize centralitySize
  obtain ⟨s', made, unfinished⟩ := r.step_ok apart (Objective.halfSquare_conforming 1) (boxed_conforming 1)
    (Coords.size_constant 1 0) boxed_count.symm atCentrality atDirection dxSize (dlSize.trans boxed_count.symm)
  obtain ⟨_, _, _, _, _, moves⟩ := moves_of_unfinished made unfinished
  rw [made, tight_state moves]

theorem after_tight : method.after tight (boxed 1) (.zeros 1) () 1 = .ok (advanced, ()) :=
  Method.after_succ_eq_ok.mpr ⟨_, (), boxed_started, step_tight, rfl⟩

/-- The step after it finds the tolerances met. -/
theorem after_advanced : method.after tight (boxed 1) (.zeros 1) () 2 =
    .ok ({ advanced with finished := true }, ()) := by
  have fits : advanced.point.size = 1 := Coords.size_constant _ _
  obtain ⟨r⟩ := exists_boxed_reading fits (Coords.size_constant _ _)
  obtain ⟨_, dualSize, _, eta, dual⟩ := boxed_read fits r
  have converged : r.Converged tight := by
    constructor
    · rw [Coords.norm_eq dualSize.le, dual]
      exact Real.sqrt_le_iff.mpr ⟨by norm_num [tight], by norm_num [tight, advanced, dotProduct]⟩
    · rw [eta]
      norm_num [tight, advanced]
  exact Method.after_succ_eq_ok.mpr ⟨advanced, (), after_tight, step_of_converged r converged, rfl⟩

/-- The run ends with that step. -/
theorem lastIndex_tight (budget : Nat) (long : 2 ≤ budget) :
    method.lastIndex tight (boxed 1) (.zeros 1) () budget = 2 := by
  refine Method.lastIndex_eq long (fun i early => ?_) (Or.inl (Method.finishedAfter_eq after_advanced))
  interval_cases i
  · exact Method.finishedAfter_eq boxed_started
  · exact Method.finishedAfter_eq after_tight

/-- A step that does not finish takes the first share of its Newton direction that qualifies, so that the
residual, at the parameter of the state before, has shrunk by the fraction of that share. Where none of the
trials qualifies neither the point nor the multipliers change. -/
theorem merit_descends (config : Config ℝ) (p : Constrained ℝ) (x : Coords ℝ) (k : Nat)
    (s s' : MultiplierState ℝ) (valid : schema.validate config = .ok ())
    (reached : method.after config p x () k = .ok (s, ())) (made : (step config p s).outcome = .ok s')
    (unfinished : s'.finished = false) :
    ∃ (r : Reading p s) (centrality dx dl merit : Coords ℝ),
      let t := config.mu * (s.multipliers.size : ℝ) / r.eta
      let trial := fun j : Nat => 0.99 * maxDualStep s.multipliers dl * config.beta ^ j
      let qualifies := Qualifies config p s dx dl merit.norm t
      0 < r.eta ∧ 0 < t ∧ centralityResidual r.values s.multipliers t = .ok centrality ∧
      (direction r.hessian r.curvature r.jacobian r.values s.multipliers r.dual centrality).outcome =
        .ok (dx, dl) ∧
      residual p s.point s.multipliers t = .ok merit ∧ merit = r.dual.append centrality ∧
      ((∃ j ≤ 100, qualifies (trial j) ∧ (∀ i < j, ¬ qualifies (trial i)) ∧
          s.point.advance (trial j) dx = .ok s'.point ∧
          s.multipliers.advance (trial j) dl = .ok s'.multipliers ∧
          p.constraints.strictlyFeasible s'.point = .ok true ∧
          ∃ merit', residual p s'.point s'.multipliers t = .ok merit' ∧
            merit'.norm ≤ (1 - config.alpha * trial j) * merit.norm) ∨
        ((∀ j ≤ 100, ¬ qualifies (trial j)) ∧ s'.point = s.point ∧ s'.multipliers = s.multipliers)) := by
  have inside := interior_of_after rfl valid reached
  obtain ⟨r, centrality, dx, dl, share, moves⟩ := moves_of_unfinished made unfinished
  have positive := inside.eta_pos r
  obtain ⟨muPositive, _⟩ := validate_eq_ok.mp valid
  have nonempty : 0 < s.multipliers.size := inside.count ▸ Nat.pos_of_ne_zero inside.constrained
  have target : 0 < config.mu * (s.multipliers.size : ℝ) / r.eta :=
    div_pos (mul_pos muPositive (Nat.cast_pos.mpr nonempty)) positive
  refine ⟨r, centrality, dx, dl, r.dual.append centrality, positive, target, moves.centrality_eq,
    moves.direction_eq, r.residual_eq moves.centrality_eq, rfl, ?_⟩
  rcases moves.share_cases with ⟨j, within, rfl, good, early⟩ | ⟨never, rfl⟩
  · exact Or.inl ⟨j, within, good, early, moves.point_eq, moves.multipliers_eq, moves.descends good⟩
  · exact Or.inr ⟨never, moves.stays⟩

/-- The residual before and after the step from the origin of a box, which takes the first share. -/
theorem merit_descends_boxed : ∃ merit merit' : Coords ℝ,
    (step tight (boxed 1) ⟨.zeros 1, .constant 1 1, false⟩).outcome = .ok advanced ∧
      residual (boxed 1) (.zeros 1) (.constant 1 1) 10 = .ok merit ∧
      residual (boxed 1) advanced.point advanced.multipliers 10 = .ok merit' ∧
      merit'.norm ≤ (1 - 0.1 * 0.99) * merit.norm := by
  obtain ⟨r, centrality, dx, dl, merit, _, _, atCentrality, atDirection, atMerit, rfl, moved⟩ :=
    merit_descends tight (boxed 1) (.zeros 1) 0 _ advanced tight_valid boxed_started step_tight rfl
  obtain ⟨target, across, _⟩ := tight_directions atCentrality atDirection
  change residual _ _ _ (r.target tight) = _ at atMerit
  rw [target] at atMerit
  obtain ⟨j, _, _, _, atPoint, _, _, merit', atNext, less⟩ | ⟨_, stays, _⟩ := moved
  · have place := congrFun (Coords.vec_advance atPoint 1) 0
    rw [Coords.vec_zeros, Pi.add_apply, Pi.smul_apply, across, advanced, Coords.vec_constant] at place
    have first : 0.99 * maxDualStep (Coords.constant 1 1) dl * tight.beta ^ j = 0.99 := by
      norm_num at place ⊢
      linarith
    change residual _ _ _ (r.target tight) = _ at atNext
    rw [target] at atNext
    dsimp only at less
    rw [first] at less
    exact ⟨_, merit', step_tight, atMerit, atNext, less.trans_eq (by norm_num [tight])⟩
  · have place := congrFun (congrArg (Coords.vec · 1) stays) 0
    norm_num [advanced] at place

/-- In every state that is reached the values of the constraints are negative, there is one positive
multiplier for each of them, and the gap and the parameter are positive. The next step keeps at least a
hundredth of every multiplier. -/
theorem interior_kept (config : Config ℝ) (p : Constrained ℝ) (x : Coords ℝ) (k : Nat)
    (s : MultiplierState ℝ) (valid : schema.validate config = .ok ())
    (conforming : p.constraints.Conforming x.size)
    (reached : method.after config p x () k = .ok (s, ())) :
    ∃ values eta, p.constraints.values s.point = .ok values ∧ values.size = p.constraints.count ∧
      (∀ v ∈ values.toList, v < 0) ∧
      s.multipliers.size = p.constraints.count ∧ (∀ l ∈ s.multipliers.toList, 0 < l) ∧
      gap values s.multipliers = .ok eta ∧ 0 < eta ∧
      0 < config.mu * (s.multipliers.size : ℝ) / eta ∧
      ∀ s', (step config p s).outcome = .ok s' → s'.multipliers.size = s.multipliers.size ∧
        ∀ (i : Nat) (old : i < s.multipliers.size) (new : i < s'.multipliers.size),
          0.01 * s.multipliers[i] ≤ s'.multipliers[i] := by
  have inside := interior_of_after rfl valid reached
  obtain ⟨values, eta, atValues, size, negative, atGap, positive⟩ := inside.gap_pos conforming
  refine ⟨values, eta, atValues, size, negative, inside.count, inside.positive, atGap, positive, ?_,
    fun s' made => ?_⟩
  · obtain ⟨muPositive, _⟩ := validate_eq_ok.mp valid
    have nonempty : 0 < s.multipliers.size := inside.count ▸ Nat.pos_of_ne_zero inside.constrained
    exact div_pos (mul_pos muPositive (Nat.cast_pos.mpr nonempty)) positive
  · obtain ⟨next, left⟩ := inside.step valid made
    refine ⟨next.count.trans inside.count.symm, fun i old new => ?_⟩
    have hundredth := left ⟨i, inside.count ▸ old⟩
    rw [Coords.vec_of_lt (i := ⟨i, _⟩) old, Coords.vec_of_lt (i := ⟨i, _⟩) new] at hundredth
    linarith

/-- Inside of a box after the step from its origin, which leaves more than a hundredth of the multiplier. -/
theorem interior_kept_boxed : ∃ values eta,
    method.after tight (boxed 1) (.zeros 1) () 1 = .ok (advanced, ()) ∧ advanced.point ≠ .zeros 1 ∧
      (boxed 1).constraints.values advanced.point = .ok values ∧ (∀ v ∈ values.toList, v < 0) ∧
      (∀ l ∈ advanced.multipliers.toList, 0 < l) ∧ gap values advanced.multipliers = .ok eta ∧ 0 < eta ∧
      0.01 * (Coords.constant 1 1).vec 1 0 ≤ advanced.multipliers.vec 1 0 := by
  obtain ⟨_, _, _, _, _, _, _, _, _, _, steps⟩ :=
    interior_kept tight (boxed 1) (.zeros 1) 0 _ tight_valid (boxed_conforming 1) boxed_started
  obtain ⟨values, eta, atValues, _, negative, _, positive, atGap, gap, _⟩ :=
    interior_kept tight (boxed 1) (.zeros 1) 1 _ tight_valid (boxed_conforming 1) after_tight
  have moved : advanced.point ≠ .zeros 1 := fun same => by
    have place := congrFun (congrArg (Coords.vec · 1) same) 0
    norm_num [advanced] at place
  have left : (0 : Fin 1).val < (Coords.constant 1 (1 : ℝ)).size := by simp
  have right : (0 : Fin 1).val < advanced.multipliers.size := by simp [advanced]
  refine ⟨values, eta, after_tight, moved, atValues, negative, positive, atGap, gap, ?_⟩
  rw [Coords.vec_of_lt left, Coords.vec_of_lt right]
  exact (steps _ step_tight).2 0 left right

end Downhill.InteriorPoint
