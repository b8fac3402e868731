import Downhill.Proofs.Affine
import Downhill.Proofs.InteriorPoint.Merit

namespace Downhill.InteriorPoint

section

variable {α : Type} [Scalar α]

/-- The dual residual at a state. -/
def dualAt (p : Constrained α) (s : MultiplierState α) : Checked (Coords α) := do
  let gradient ← p.objective.gradient s.point
  let jacobian ← p.constraints.jacobian s.point
  dualResidual gradient jacobian s.multipliers

variable {p : Constrained α} {s s' : MultiplierState α}

theorem Reading.dualAt_eq (r : Reading p s) : dualAt p s = .ok r.dual := by
  simp only [dualAt, Outcome.bind_eq_ok]
  exact ⟨r.gradient, r.gradient_eq, r.jacobian, r.jacobian_eq, r.dual_eq⟩

/-- What is measured is the length of the dual residual. -/
theorem residualMeasure_of_dualAt {dual : Coords α} (made : dualAt p s = .ok dual) :
    residualMeasure.value p s = .ok dual.norm := by
  simp only [dualAt, Outcome.bind_eq_ok] at made
  obtain ⟨gradient, atGradient, jacobian, atJacobian, atDual⟩ := made
  simp only [residualMeasure, Outcome.bind_eq_ok, Outcome.pure_eq_ok]
  exact ⟨gradient, atGradient, jacobian, atJacobian, dual, atDual, rfl⟩

end

variable {config : Config ℝ} {p : Constrained ℝ} {H J : Table ℝ} {n : Nat} {s s' : MultiplierState ℝ}

/-- The complementarity equations of the Newton system, added up. -/
theorem sum_of_centred {m : Nat} {l c z d : Fin m → ℝ} {t : ℝ}
    (centred : ∀ i, l i * z i + c i * d i = -(l i * c i) - 1 / t) :
    l ⬝ᵥ z + c ⬝ᵥ d = -(c ⬝ᵥ l) - m * (1 / t) := by
  rw [dotProduct_comm c l]
  simp only [dotProduct, ← Finset.sum_add_distrib, centred, Finset.sum_sub_distrib, Finset.sum_neg_distrib,
    Finset.sum_const, Finset.card_univ, Fintype.card_fin, nsmul_eq_mul]

theorem moved_dotProduct {m : Nat} (c l z d : Fin m → ℝ) (a : ℝ) :
    -((c + a • z) ⬝ᵥ (l + a • d)) = -(c ⬝ᵥ l) - a * (l ⬝ᵥ z + c ⬝ᵥ d) - a ^ 2 * (d ⬝ᵥ z) := by
  rw [dotProduct_comm l z, dotProduct_comm d z]
  simp only [add_dotProduct, dotProduct_add, smul_dotProduct, dotProduct_smul, smul_eq_mul]
  ring

/-- A share is not negative, and less than the whole. -/
theorem Interior.share_bounds {r : Reading p s} {centrality dx dl : Coords ℝ} {share : ℝ}
    (inside : Interior p.constraints n s) (valid : schema.validate config = .ok ())
    (moves : Moves config p s r centrality dx dl share s') : 0 ≤ share ∧ share < 1 := by
  have positive := (Coords.forall_mem_iff inside.count).mp inside.positive
  have directions : dl.size = p.constraints.count :=
    (Coords.size_combine moves.multipliers_eq).1.symm.trans inside.count
  have largest := maxDualStep_pos inside.count directions positive
  obtain ⟨nonneg, within, _⟩ := stepSize_bounds valid inside.strict largest.le moves.share_eq
  refine ⟨nonneg, within.trans_lt (mul_lt_one_of_nonneg_of_lt_one_left ?_ ?_ maxDualStep_le_one)⟩ <;>
    norm_num [stepShare]

/-- A quadratic objective under affine constraints, with the dimensions that belong together. -/
structure QuadraticProgram (p : Constrained ℝ) (H J : Table ℝ) (n : Nat) : Prop where
  objective : p.objective.Conforming n
  constraints : p.constraints.Conforming n
  constant : p.objective.ConstantHessian H n
  affine : p.constraints.Affine J n

section

variable (program : QuadraticProgram p H J n) (inside : Interior p.constraints n s)

include program inside

theorem QuadraticProgram.shape : J.height = p.constraints.count ∧ J.width = n :=
  program.constraints.shape_jacobian inside.dimension (program.affine.jacobian s.point inside.dimension)

theorem QuadraticProgram.dual_size (r : Reading p s) : r.dual.size = n := by
  obtain ⟨high, wide⟩ := program.constraints.shape_jacobian inside.dimension r.jacobian_eq
  exact (vec_dualResidual high wide r.dual_eq).1.trans
    (program.objective.size_gradient inside.dimension r.gradient_eq)

/-- The dual residual at any state in the interior is defined. -/
theorem QuadraticProgram.dualAt_ok : ∃ dual, dualAt p s = .ok dual ∧ dual.size = n := by
  obtain ⟨gradient, atGradient, size⟩ := program.objective.gradient s.point inside.dimension
  obtain ⟨high, wide⟩ := program.shape inside
  obtain ⟨dual, atDual, dualSize⟩ := dualResidual_ok size wide (inside.count.trans high.symm)
  refine ⟨dual, ?_, dualSize⟩
  simp only [dualAt, Outcome.bind_eq_ok]
  exact ⟨gradient, atGradient, J, program.affine.jacobian s.point inside.dimension, atDual⟩

theorem QuadraticProgram.exists_reading : Nonempty (Reading p s) := by
  obtain ⟨values, eta, atValues, _, _, atGap, _⟩ := inside.gap_pos program.constraints
  obtain ⟨gradient, atGradient, gradientSize⟩ := program.objective.gradient s.point inside.dimension
  obtain ⟨Z, atCurvature, _⟩ :=
    program.constraints.curvature s.point s.multipliers inside.dimension inside.count
  obtain ⟨high, wide⟩ := program.shape inside
  obtain ⟨dual, atDual, _⟩ := dualResidual_ok gradientSize wide (inside.count.trans high.symm)
  exact ⟨values, J, H, gradient, Z, eta, dual, atValues, program.affine.jacobian s.point inside.dimension,
    program.constant.hessian s.point inside.dimension, atGradient, atCurvature, atGap, atDual⟩

/-- Away from the tolerances a step comes to an end where its Newton system takes no pair of vectors, with a
coordinate of one, to small entries alone. -/
theorem QuadraticProgram.step_ok (r : Reading p s) (apart : ¬ r.Converged config)
    (large : ∀ (z : Fin n → ℝ) (y : Fin p.constraints.count → ℝ), ((∃ i, z i = 1) ∨ ∃ i, y i = 1) →
      (∃ i, Elimination.pivotFloor ≤
        |((H.mat n n).mulVec z + (J.mat p.constraints.count n).transpose.mulVec y) i|) ∨
      ∃ i, Elimination.pivotFloor ≤
        |(-(Matrix.diagonal (s.multipliers.vec p.constraints.count) * J.mat p.constraints.count n).mulVec z -
          (Matrix.diagonal (r.values.vec p.constraints.count)).mulVec y) i|) :
    ∃ s', (step config p s).outcome = .ok s' ∧ s'.finished = s.finished := by
  obtain ⟨high, wide⟩ := program.shape inside
  obtain ⟨Z, atCurvature, tall, square⟩ :=
    program.constraints.curvature s.point s.multipliers inside.dimension inside.count
  obtain rfl := Except.ok.inj (atCurvature.symm.trans r.curvature_eq)
  have flat := program.affine.curvature s.point s.multipliers _ inside.dimension inside.count r.curvature_eq
  obtain rfl := Except.ok.inj (r.hessian_eq.symm.trans (program.constant.hessian s.point inside.dimension))
  obtain rfl := Except.ok.inj (r.jacobian_eq.symm.trans (program.affine.jacobian s.point inside.dimension))
  have valuesSize := program.constraints.size_values inside.dimension r.values_eq
  obtain ⟨sum, atSum, sumHeight, sumWidth, entries⟩ :=
    Table.add_ok program.constant.high program.constant.wide tall square
  obtain ⟨M, atSystem, systemHeight, systemWidth, blocks⟩ :=
    system_ok sumHeight sumWidth high wide valuesSize inside.count
  rw [entries, flat, add_zero] at blocks
  obtain ⟨E, made⟩ := Table.eliminate_of_images systemHeight systemWidth fun z k one => by
    rw [blocks, Matrix.submatrix_mulVec_equiv, Matrix.fromBlocks_mulVec]
    have somewhere : (∃ i, (z ∘ finSumFinEquiv) (Sum.inl i) = 1) ∨ ∃ i, (z ∘ finSumFinEquiv) (Sum.inr i) = 1 := by
      rcases place : finSumFinEquiv.symm k with i | i
      · exact Or.inl ⟨i, by simpa [← place] using one⟩
      · exact Or.inr ⟨i, by simpa [← place] using one⟩
    rcases large ((z ∘ finSumFinEquiv) ∘ Sum.inl) ((z ∘ finSumFinEquiv) ∘ Sum.inr) somewhere with
      ⟨i, clear⟩ | ⟨i, clear⟩
    · refine ⟨finSumFinEquiv (Sum.inl i), ?_⟩
      rwa [Function.comp_apply, Equiv.symm_apply_apply, Sum.elim_inl]
    · refine ⟨finSumFinEquiv (Sum.inr i), ?_⟩
      rwa [Function.comp_apply, Equiv.symm_apply_apply, Sum.elim_inr, Matrix.neg_mulVec, Matrix.neg_mulVec,
        ← sub_eq_add_neg]
  obtain ⟨centrality, atCentrality, centralitySize⟩ :=
    centralityResidual_ok valuesSize inside.count (r.target config)
  obtain ⟨dx, dl, atDirection, dxSize, dlSize⟩ := direction_ok atSum atSystem made program.constant.high
    systemHeight (program.dual_size inside r) centralitySize
  exact r.step_ok apart program.objective program.constraints inside.dimension inside.count atCentrality atDirection
    dxSize dlSize

section

variable {r : Reading p s} {centrality dx dl : Coords ℝ} {share : ℝ}
  (moves : Moves config p s r centrality dx dl share s')

include moves

/-- The direction of a step solves the Newton system of the program. -/
theorem QuadraticProgram.solves : (H.mat n n).mulVec (dx.vec n) +
      (J.mat p.constraints.count n).transpose.mulVec (dl.vec p.constraints.count) = -r.dual.vec n ∧
    -(Matrix.diagonal (s.multipliers.vec p.constraints.count) * J.mat p.constraints.count n).mulVec
        (dx.vec n) - (Matrix.diagonal (r.values.vec p.constraints.count)).mulVec
          (dl.vec p.constraints.count) = -centrality.vec p.constraints.count := by
  obtain ⟨high, wide⟩ := program.shape inside
  obtain ⟨Z, atCurvature, tall, square⟩ :=
    program.constraints.curvature s.point s.multipliers inside.dimension inside.count
  obtain rfl := Except.ok.inj (atCurvature.symm.trans r.curvature_eq)
  have flat := program.affine.curvature s.point s.multipliers _ inside.dimension inside.count r.curvature_eq
  obtain rfl := Except.ok.inj (r.hessian_eq.symm.trans (program.constant.hessian s.point inside.dimension))
  obtain rfl := Except.ok.inj (r.jacobian_eq.symm.trans (program.affine.jacobian s.point inside.dimension))
  have solved := direction_solves moves.direction_eq program.constant.high program.constant.wide tall square
    high wide (program.constraints.size_values inside.dimension r.values_eq) inside.count
    (program.dual_size inside r)
  rwa [flat, add_zero] at solved

/-- Every complementarity equation of the system, by itself. -/
theorem QuadraticProgram.centred (i : Fin p.constraints.count) :
    s.multipliers.vec p.constraints.count i * (J.mat p.constraints.count n).mulVec (dx.vec n) i +
        r.values.vec p.constraints.count i * dl.vec p.constraints.count i =
      -(s.multipliers.vec p.constraints.count i * r.values.vec p.constraints.count i) - 1 / r.target config := by
  have entry := congrFun (program.solves inside moves).2 i
  rw [Pi.neg_apply, vec_centralityResidual inside.count moves.centrality_eq, ← Matrix.mulVec_mulVec] at entry
  simp only [Pi.sub_apply, Pi.neg_apply, Matrix.mulVec_diagonal] at entry
  linarith

/-- The share of the dual residual that a step leaves. -/
theorem QuadraticProgram.dualAt_next (next : Interior p.constraints n s') :
    dualAt p s' = .ok (r.dual.scale (1 - share)) := by
  obtain ⟨high, wide⟩ := program.shape inside
  obtain ⟨gradient, atGradient, gradientSize⟩ := program.objective.gradient s'.point next.dimension
  obtain ⟨dual, atDual, dualSize⟩ := dualResidual_ok gradientSize wide (next.count.trans high.symm)
  obtain rfl := Except.ok.inj (r.jacobian_eq.symm.trans (program.affine.jacobian s.point inside.dimension))
  have before := (vec_dualResidual high wide r.dual_eq).2
  have after := (vec_dualResidual high wide atDual).2
  have turned := program.constant.gradient s.point s'.point r.gradient gradient inside.dimension
    next.dimension r.gradient_eq atGradient
  obtain ⟨upper, _⟩ := program.solves inside moves
  have moved : s'.point.vec n - s.point.vec n = share • dx.vec n := by
    rw [Coords.vec_advance moves.point_eq, add_sub_cancel_left]
  have shrunk : dual.vec n = (1 - share) • r.dual.vec n := by
    rw [after, turned, moved, Coords.vec_advance moves.multipliers_eq, Matrix.add_vecMul,
      Matrix.mulVec_smul, Matrix.smul_vecMul]
    rw [Matrix.mulVec_transpose] at upper
    calc r.gradient.vec n + share • (H.mat n n).mulVec (dx.vec n) +
          ((r.jacobian.mat p.constraints.count n).vecMul (s.multipliers.vec p.constraints.count) +
            share • (r.jacobian.mat p.constraints.count n).vecMul (dl.vec p.constraints.count))
        = r.dual.vec n + share • ((H.mat n n).mulVec (dx.vec n) +
            (r.jacobian.mat p.constraints.count n).vecMul (dl.vec p.constraints.count)) := by
          rw [before, smul_add]
          abel
      _ = (1 - share) • r.dual.vec n := by
          rw [upper, smul_neg, sub_smul, one_smul, sub_eq_add_neg]
  have same : dual = r.dual.scale (1 - share) := by
    refine Coords.eq_of_vec dualSize ((Coords.size_scale _ _).trans (program.dual_size inside r)) ?_
    rw [shrunk, Coords.vec_scale]
  simp only [dualAt, Outcome.bind_eq_ok]
  exact ⟨gradient, atGradient, r.jacobian, program.affine.jacobian s'.point next.dimension,
    same ▸ atDual⟩

/-- The gap after a step: it shrinks towards its target, but for the product of the two directions. -/
theorem QuadraticProgram.gap_next (positive : 0 < config.mu) (next : Interior p.constraints n s') :
    gapMeasure.value p s' = .ok (r.eta * (1 - share * (1 - 1 / config.mu)) -
      share ^ 2 * (dl.vec p.constraints.count ⬝ᵥ
        (J.mat p.constraints.count n).mulVec (dx.vec n))) := by
  obtain ⟨values, atValues, size⟩ := program.constraints.values s'.point next.dimension
  have oldSize := program.constraints.size_values inside.dimension r.values_eq
  have turned := program.affine.values s.point s'.point r.values values inside.dimension next.dimension
    r.values_eq atValues
  rw [Coords.vec_advance moves.point_eq, add_sub_cancel_left, Matrix.mulVec_smul] at turned
  obtain ⟨_, gap⟩ := (gap_eq_ok oldSize).mp r.gap_eq
  have eta := inside.eta_pos r
  have constrained : (0 : ℝ) < p.constraints.count := Nat.cast_pos.mpr (Nat.pos_of_ne_zero inside.constrained)
  -- The product of the two directions is what the linearized complementarity leaves out.
  have balance : s.multipliers.vec p.constraints.count ⬝ᵥ (J.mat p.constraints.count n).mulVec (dx.vec n) +
      r.values.vec p.constraints.count ⬝ᵥ dl.vec p.constraints.count =
        r.eta * (1 - 1 / config.mu) := by
    rw [sum_of_centred (program.centred inside moves), ← gap, Reading.target, inside.count]
    field_simp
  have made := (gap_eq_ok size).mpr ⟨next.count, rfl⟩
  refine Outcome.bind_eq_ok.mpr ⟨values, atValues, made.trans (congrArg Except.ok ?_)⟩
  rw [turned, Coords.vec_advance moves.multipliers_eq, moved_dotProduct, balance, ← gap]
  ring

end

/-- A step leaves some share of the dual residual, all of it where the state does not move. -/
theorem QuadraticProgram.dualAt_step
    (valid : schema.validate config = .ok ()) (made : (step config p s).outcome = .ok s') {dual : Coords ℝ}
    (here : dualAt p s = .ok dual) : ∃ κ : ℝ, 0 ≤ κ ∧ κ ≤ 1 ∧ dualAt p s' = .ok (dual.scale κ) := by
  obtain ⟨next, _⟩ := inside.step valid made
  obtain ⟨r, ⟨_, rfl⟩ | ⟨_, centrality, dx, dl, share, moves⟩⟩ := step_cases made
  · exact ⟨1, zero_le_one, le_rfl, by rw [Coords.scale_one]; exact here⟩
  · obtain rfl := Except.ok.inj (r.dualAt_eq.symm.trans here)
    obtain ⟨nonneg, within⟩ := inside.share_bounds valid moves
    exact ⟨1 - share, sub_nonneg.mpr within.le, sub_le_self _ nonneg, program.dualAt_next inside moves next⟩

end

/-- In the interior, with a dual residual that is a multiple of the given one, not negative. -/
def OnLine (p : Constrained ℝ) (n : Nat) (initial : Coords ℝ) (s : MultiplierState ℝ) : Prop :=
  Interior p.constraints n s ∧ ∃ κ : ℝ, 0 ≤ κ ∧ dualAt p s = .ok (initial.scale κ)

theorem OnLine.step {initial : Coords ℝ} (held : OnLine p n initial s) (program : QuadraticProgram p H J n)
    (valid : schema.validate config = .ok ()) (made : (step config p s).outcome = .ok s') :
    OnLine p n initial s' := by
  obtain ⟨inside, κ, nonneg, here⟩ := held
  obtain ⟨left, least, _, next⟩ := program.dualAt_step inside valid made here
  exact ⟨(inside.step valid made).1, κ * left, mul_nonneg nonneg least, Coords.scale_scale initial κ left ▸ next⟩

/-- However many steps have been made, the dual residual is on the line of the one at the start. -/
theorem QuadraticProgram.onLine_after {x : Coords ℝ} {k : Nat} (program : QuadraticProgram p H J x.size)
    (valid : schema.validate config = .ok ()) (reached : method.after config p x () k = .ok (s, ())) :
    ∃ first initial, method.after config p x () 0 = .ok (first, ()) ∧ dualAt p first = .ok initial ∧
      OnLine p x.size initial s := by
  obtain ⟨first, _, begun⟩ := Method.after_ok_of_le reached (Nat.zero_le k)
  have start := interior_of_after rfl valid begun
  obtain ⟨initial, atStart, _⟩ := program.dualAt_ok start
  have held : OnLine p x.size initial first := ⟨start, 1, zero_le_one, by rwa [Coords.scale_one]⟩
  exact ⟨first, initial, begun, atStart, Method.after_keeps (m := method)
    (fun _ _ _ held made => held.step program valid made) (Nat.zero_le k) begun held reached⟩

/-- A step on a quadratic program goes by a share of the exact solution of the Newton system; it leaves what
the share leaves of the dual residual, and the gap that the share, its target and the product of both
directions determine. So the dual residual stays a multiple, not negative, of that at the start. -/
theorem residual_keeps_line (config : Config ℝ) (p : Constrained ℝ) (H J : Table ℝ) (x : Coords ℝ) (k : Nat)
    (s : MultiplierState ℝ) (valid : schema.validate config = .ok ())
    (program : QuadraticProgram p H J x.size) (reached : method.after config p x () k = .ok (s, ())) :
    let n := x.size
    let m := p.constraints.count
    (∃ first initial κ, method.after config p x () 0 = .ok (first, ()) ∧ dualAt p first = .ok initial ∧
      0 ≤ κ ∧ dualAt p s = .ok (initial.scale κ)) ∧
    ∀ s', (step config p s).outcome = .ok s' →
      (∃ before after, residualMeasure.value p s = .ok before ∧ residualMeasure.value p s' = .ok after ∧
        after ≤ before) ∧
      (s'.finished = false → ∃ (r : Reading p s) (centrality dx dl : Coords ℝ) (share : ℝ),
        Moves config p s r centrality dx dl share s' ∧ 0 ≤ share ∧ share ≤ 1 ∧
        (H.mat n n).mulVec (dx.vec n) + (J.mat m n).transpose.mulVec (dl.vec m) = -r.dual.vec n ∧
        -(Matrix.diagonal (s.multipliers.vec m) * J.mat m n).mulVec (dx.vec n) -
          (Matrix.diagonal (r.values.vec m)).mulVec (dl.vec m) = -centrality.vec m ∧
        dualAt p s' = .ok (r.dual.scale (1 - share)) ∧
        gapMeasure.value p s' = .ok (r.eta * (1 - share * (1 - 1 / config.mu)) -
          share ^ 2 * (dl.vec m ⬝ᵥ (J.mat m n).mulVec (dx.vec n)))) := by
  intro n m
  have inside := interior_of_after rfl valid reached
  refine ⟨?_, fun s' made => ?_⟩
  · obtain ⟨first, initial, begun, atStart, _, κ, nonneg, here⟩ := program.onLine_after valid reached
    exact ⟨first, initial, κ, begun, atStart, nonneg, here⟩
  · obtain ⟨dual, here, _⟩ := program.dualAt_ok inside
    obtain ⟨κ, nonneg, within, there⟩ := program.dualAt_step inside valid made here
    refine ⟨⟨_, _, residualMeasure_of_dualAt here, residualMeasure_of_dualAt there, ?_⟩, fun unfinished => ?_⟩
    · rw [Coords.norm_scale, abs_of_nonneg nonneg]
      exact mul_le_of_le_one_left (Coords.norm_nonneg dual) within
    · obtain ⟨r, centrality, dx, dl, share, moves⟩ := moves_of_unfinished made unfinished
      obtain ⟨next, _⟩ := inside.step valid made
      obtain ⟨positive, _⟩ := validate_eq_ok.mp valid
      obtain ⟨least, most⟩ := inside.share_bounds valid moves
      obtain ⟨upper, lower⟩ := program.solves inside moves
      exact ⟨r, centrality, dx, dl, share, moves, least, most.le, upper, lower,
        program.dualAt_next inside moves next, program.gap_next inside moves positive next⟩

theorem boxed_program : QuadraticProgram (boxed 1) (.identity 1) (.identity 1) 1 where
  objective := Objective.halfSquare_conforming 1
  constraints := boxed_conforming 1
  constant := Objective.quadratic_constantHessian _ (Table.height_identity 1) (Table.width_identity 1)
  affine := Constraints.linear_affine ((Table.height_identity 1).trans (Coords.size_constant 1 _).symm)
    (Table.width_identity 1)

/-- The step from the origin of a box leaves a hundredth of the dual residual, and of the gap what belongs to
its share. -/
theorem residual_keeps_line_boxed : ∃ r : Reading (boxed 1) ⟨.zeros 1, .constant 1 1, false⟩,
    (step tight (boxed 1) ⟨.zeros 1, .constant 1 1, false⟩).outcome = .ok advanced ∧ r.eta = 1 ∧
      (r.dual.vec 1 = fun _ => 1) ∧ dualAt (boxed 1) advanced = .ok (r.dual.scale (1 - 0.99)) ∧
      gapMeasure.value (boxed 1) advanced = .ok (1 * (1 - 0.99 * (1 - 1 / 10)) - 0.99 ^ 2 * (-0.95 * -0.05)) := by
  obtain ⟨_, steps⟩ := residual_keeps_line tight (boxed 1) (.identity 1) (.identity 1) (.zeros 1) 0 _ tight_valid
    boxed_program boxed_started
  obtain ⟨r, _, dx, dl, share, moves, _, _, _, _, dual, gap⟩ := (steps _ step_tight).2 rfl
  obtain ⟨_, _, _, eta, level⟩ := boxed_read (Coords.size_constant _ _) r
  rw [Coords.vec_zeros, Coords.vec_constant] at eta level
  obtain ⟨_, across, back⟩ := tight_directions moves.centrality_eq moves.direction_eq
  obtain rfl := tight_share moves
  refine ⟨r, step_tight, by simp [eta], by simp [level], dual, gap.trans (congrArg Except.ok ?_)⟩
  have product : dl.vec 1 ⬝ᵥ ((Table.identity 1).mat 1 1).mulVec (dx.vec 1) = -0.95 * -0.05 := by
    rw [Table.mat_identity, Matrix.one_mulVec, dotProduct, Fin.sum_univ_one, across, back]
  rw [boxed_count]
  change r.eta * (1 - 0.99 * (1 - 1 / tight.mu)) - 0.99 ^ 2 *
    (dl.vec 1 ⬝ᵥ ((Table.identity 1).mat 1 1).mulVec (dx.vec 1)) = _
  rw [product, eta]
  norm_num [tight]

end Downhill.InteriorPoint
