import Downhill.Proofs.Elimination.Solution
import Downhill.Proofs.InteriorPoint.Invariant

namespace Downhill.InteriorPoint

section

variable {α : Type} [Scalar α] {config : Config α} {p : Constrained α} {n : Nat} {s : MultiplierState α}

theorem centralityResidual_ok {values l : Coords α} {m : Nat} (size : values.size = m) (count : l.size = m)
    (t : α) : ∃ centrality, centralityResidual values l t = .ok centrality ∧ centrality.size = m := by
  obtain ⟨products, made, productsSize⟩ := Coords.combine_ok (· * ·) (count.trans size.symm)
  exact ⟨_, by simp only [centralityResidual, made, bind, Except.bind]; rfl,
    (Coords.size_map _ _).trans (productsSize.trans count)⟩

variable (objective : p.objective.Conforming n) (constraints : p.constraints.Conforming n)

include objective constraints

theorem residual_ok {x l : Coords α} (size : x.size = n) (count : l.size = p.constraints.count) (t : α) :
    ∃ r, residual p x l t = .ok r := by
  obtain ⟨values, atValues, valuesSize⟩ := constraints.values x size
  obtain ⟨gradient, atGradient, gradientSize⟩ := objective.gradient x size
  obtain ⟨J, atJacobian, high, wide⟩ := constraints.jacobian x size
  obtain ⟨dual, atDual, _⟩ := dualResidual_ok gradientSize wide (count.trans high.symm)
  obtain ⟨centrality, atCentrality, _⟩ := centralityResidual_ok valuesSize count t
  refine ⟨dual.append centrality, ?_⟩
  simp only [residual, atValues, atGradient, atJacobian, atDual, atCentrality, bind, Except.bind]
  rfl

variable (dimension : s.point.size = n) (count : s.multipliers.size = p.constraints.count)
  {dx dl : Coords α} (dxSize : dx.size = n) (dlSize : dl.size = p.constraints.count)

include dimension count dxSize dlSize

variable (config)

theorem attempt_ok (start t share : α) : ∃ trial, attempt config p s dx dl start t share = .ok trial := by
  have dxScaled : (dx.scale share).size = n := (Coords.size_scale dx share).trans dxSize
  have dlScaled : (dl.scale share).size = p.constraints.count := (Coords.size_scale dl share).trans dlSize
  obtain ⟨x, atPoint, xSize⟩ := Coords.add_ok dimension dxScaled
  obtain ⟨l, atMultipliers, lSize⟩ := Coords.add_ok count dlScaled
  obtain ⟨values, atValues, _⟩ := constraints.values x xSize
  obtain ⟨r, atResidual⟩ := residual_ok objective constraints xSize lSize t
  simp only [attempt, Constraints.strictlyFeasible, atPoint, atValues, atMultipliers, atResidual, bind,
    Except.bind, pure, Except.pure]
  split <;> exact ⟨_, rfl⟩

/-- A search along directions of fitting sizes comes to an end, accepted or not. -/
theorem stepSize_ok (r : Coords α) (t : α) : ∃ share, (stepSize config p s dx dl r t).outcome = .ok share := by
  obtain ⟨last, searched⟩ := Backtracking.resume_ok
    (attempt_ok config objective constraints dimension count dxSize dlSize r.norm t) config.beta maxShrinks
    (stepShare * maxDualStep s.multipliers dl) 0
  cases accepted : last.accepted with
  | true => exact ⟨last.step, stepSize_eq_ok.mpr ⟨last, searched, Or.inl ⟨accepted, rfl⟩⟩⟩
  | false => exact ⟨0, stepSize_eq_ok.mpr ⟨last, searched, Or.inr ⟨accepted, rfl⟩⟩⟩

end

/-- The entries of the centrality residual. -/
theorem vec_centralityResidual {values l centrality : Coords ℝ} {t : ℝ} {m : Nat} (count : l.size = m)
    (made : centralityResidual values l t = .ok centrality) (i : Fin m) :
    centrality.vec m i = -(l.vec m i * values.vec m i) - 1 / t := by
  simp only [centralityResidual, Outcome.bind_eq_ok, Outcome.pure_eq_ok] at made
  obtain ⟨products, atProducts, rfl⟩ := made
  rw [Coords.vec_map_of_size _ ((Coords.size_combine atProducts).2.trans count),
    Coords.vec_combine (mul_zero 0) atProducts]

/-- The length of both residuals together. -/
theorem norm_residual {p : Constrained ℝ} {n m : Nat} {x l merit : Coords ℝ} {t : ℝ}
    (objective : p.objective.Conforming n) (constraints : p.constraints.Conforming n)
    (constrained : p.constraints.count = m) (size : x.size = n) (count : l.size = m)
    (made : residual p x l t = .ok merit) :
    ∃ values gradient J, p.constraints.values x = .ok values ∧ p.objective.gradient x = .ok gradient ∧
      p.constraints.jacobian x = .ok J ∧
      let dual := gradient.vec n + (J.mat m n).vecMul (l.vec m)
      let centrality := fun i => -(l.vec m i * values.vec m i) - 1 / t
      merit.norm = √(dual ⬝ᵥ dual + centrality ⬝ᵥ centrality) := by
  simp only [residual, Outcome.bind_eq_ok, Outcome.pure_eq_ok] at made
  obtain ⟨values, atValues, gradient, atGradient, J, atJacobian, dual, atDual, centrality, atCentrality, rfl⟩ :=
    made
  obtain ⟨high, wide⟩ := constraints.shape_jacobian size atJacobian
  obtain ⟨dualSize, along⟩ := vec_dualResidual (high.trans constrained) wide atDual
  have valuesSize : values.size = m := (constraints.size_values size atValues).trans constrained
  obtain ⟨_, same, centralitySize⟩ := centralityResidual_ok valuesSize count t
  obtain rfl := Except.ok.inj (same.symm.trans atCentrality)
  have centred := funext (vec_centralityResidual count atCentrality)
  refine ⟨values, gradient, J, atValues, atGradient, atJacobian, ?_⟩
  rw [Coords.norm_append (dualSize.trans (objective.size_gradient size atGradient)) centralitySize, along, centred]

/-- Tables of fitting shapes make up a system, with the multipliers and the values on diagonals. -/
theorem system_ok {curvature jacobian : Table ℝ} {values multipliers : Coords ℝ} {n m : Nat}
    (tall : curvature.height = n) (square : curvature.width = n) (high : jacobian.height = m)
    (wide : jacobian.width = n) (valuesSize : values.size = m) (count : multipliers.size = m) :
    ∃ M, system curvature jacobian values multipliers = .ok M ∧ M.height = n + m ∧ M.width = n + m ∧
      M.mat (n + m) (n + m) =
        (Matrix.fromBlocks (curvature.mat n n) (jacobian.mat m n).transpose
          (-(Matrix.diagonal (multipliers.vec m) * jacobian.mat m n))
          (-Matrix.diagonal (values.vec m))).submatrix finSumFinEquiv.symm finSumFinEquiv.symm := by
  subst tall valuesSize
  refine ⟨_, by rw [system, dif_pos square, dif_pos wide, dif_pos high, dif_pos (Or.inr count.ge)],
    Table.height_ofFn _ _ _, rfl, ?_⟩
  rw [Table.mat_ofFn]
  ext i j
  refine Fin.addCases (fun i => ?_) (fun i => ?_) i <;> refine Fin.addCases (fun j => ?_) (fun j => ?_) j
  · simp [Table.mat_entry i.isLt (j.isLt.trans_eq square.symm)]
  · simp [Table.mat_entry (j.isLt.trans_eq high.symm) (i.isLt.trans_eq wide.symm)]
  · simp [Table.mat_entry (i.isLt.trans_eq high.symm) (j.isLt.trans_eq wide.symm),
      Coords.vec_of_lt (x := multipliers) (i := i) (i.isLt.trans_eq count.symm)]
  · by_cases same : i = j
    · subst same
      simp [Coords.vec_of_lt (x := values) (i := i) i.isLt]
    · simp [same, Fin.val_inj]

section

variable {config : Config ℝ} {p : Constrained ℝ} {n : Nat} {s : MultiplierState ℝ}

theorem direction_ok {hessian curvature jacobian sum M : Table ℝ}
    {values multipliers dual centrality : Coords ℝ} {E : Elimination ℝ M.height} {m : Nat}
    (atSum : hessian.add curvature = .ok sum)
    (atSystem : system sum jacobian values multipliers = .ok M) (made : M.eliminate = some E)
    (tall : hessian.height = n) (high : M.height = n + m) (dualSize : dual.size = n)
    (centralitySize : centrality.size = m) :
    ∃ dx dl, (direction hessian curvature jacobian values multipliers dual centrality).outcome =
      .ok (dx, dl) ∧ dx.size = n ∧ dl.size = m := by
  have right : M.height = (dual.append centrality).neg.size := by
    rw [Coords.neg, Coords.size_map, Coords.size_append, dualSize, centralitySize, high]
  obtain ⟨both, _, solved, _, size⟩ := solve_of_eliminate made right "primal-dual KKT system"
  refine ⟨both.take hessian.height, both.drop hessian.height, ?_, ?_, ?_⟩
  · simp only [direction, Work.outcome_bind_eq_ok, Work.outcome_checked_eq_ok,
      Work.outcome_except_eq_ok]
    exact ⟨sum, atSum, M, atSystem, both, solved, rfl⟩
  · have whole : both.entries.size = n + m := size.trans high
    simp [Coords.take, Coords.size, whole, tall]
  · have whole : both.entries.size = n + m := size.trans high
    simp [Coords.drop, Coords.size, whole, tall]

/-- A direction solves both block rows of the Newton system. -/
theorem direction_solves {hessian curvature jacobian : Table ℝ}
    {values l dual centrality dx dl : Coords ℝ} {n m : Nat}
    (made : (direction hessian curvature jacobian values l dual centrality).outcome = .ok (dx, dl))
    (tall : hessian.height = n) (square : hessian.width = n) (sameHeight : curvature.height = n)
    (sameWidth : curvature.width = n) (high : jacobian.height = m) (wide : jacobian.width = n)
    (valuesSize : values.size = m) (count : l.size = m) (dualSize : dual.size = n) :
    (hessian.mat n n + curvature.mat n n).mulVec (dx.vec n) +
        (jacobian.mat m n).transpose.mulVec (dl.vec m) = -dual.vec n ∧
      -(Matrix.diagonal (l.vec m) * jacobian.mat m n).mulVec (dx.vec n) -
        (Matrix.diagonal (values.vec m)).mulVec (dl.vec m) = -centrality.vec m := by
  obtain ⟨sum, atSum, sumHeight, sumWidth, entries⟩ := Table.add_ok tall square sameHeight sameWidth
  obtain ⟨M, atSystem, tallSystem, _, blocks⟩ := system_ok sumHeight sumWidth high wide valuesSize count
  simp only [direction, Work.outcome_bind_eq_ok, Work.outcome_checked_eq_ok, Work.outcome_except_eq_ok,
    Work.outcome_pure_eq_ok, Prod.mk.injEq] at made
  obtain ⟨_, sameSum, _, sameSystem, both, solved, rfl, rfl⟩ := made
  obtain rfl := Except.ok.inj (atSum.symm.trans sameSum)
  obtain rfl := Except.ok.inj (atSystem.symm.trans sameSystem)
  obtain ⟨_, solution⟩ := mulVec_of_solve solved tallSystem
  rw [blocks, Matrix.submatrix_mulVec_equiv, Matrix.fromBlocks_mulVec, entries] at solution
  have upper : (both.vec (n + m) ∘ finSumFinEquiv.symm.symm) ∘ Sum.inl = (both.take hessian.height).vec n := by
    subst tall
    funext i
    simp [Coords.vec_take (m := m)]
  have lower : (both.vec (n + m) ∘ finSumFinEquiv.symm.symm) ∘ Sum.inr = (both.drop hessian.height).vec m := by
    subst tall
    funext i
    simp [Coords.vec_drop (n := hessian.height)]
  rw [upper, lower] at solution
  constructor
  · funext i
    have entry := congrFun solution (Fin.castAdd m i)
    rw [Coords.vec_neg, Pi.neg_apply, Coords.vec_append_castAdd dualSize] at entry
    simpa using entry
  · funext i
    have entry := congrFun solution (Fin.natAdd n i)
    rw [Coords.vec_neg, Pi.neg_apply, Coords.vec_append_natAdd dualSize] at entry
    simpa [-Matrix.diagonal_neg, Matrix.neg_mulVec, sub_eq_add_neg] using entry

/-- A step with a Newton direction comes to an end, and moves unless both tolerances are met. -/
theorem Reading.step_ok (r : Reading p s) (apart : ¬ r.Converged config)
    (objective : p.objective.Conforming n) (constraints : p.constraints.Conforming n)
    (dimension : s.point.size = n) (count : s.multipliers.size = p.constraints.count)
    {centrality dx dl : Coords ℝ}
    (atCentrality : centralityResidual r.values s.multipliers (r.target config) = .ok centrality)
    (atDirection : (direction r.hessian r.curvature r.jacobian r.values s.multipliers r.dual
      centrality).outcome = .ok (dx, dl))
    (dxSize : dx.size = n) (dlSize : dl.size = p.constraints.count) :
    ∃ s', (step config p s).outcome = .ok s' ∧ s'.finished = s.finished := by
  obtain ⟨share, atShare⟩ := stepSize_ok config objective constraints dimension count dxSize dlSize
    (r.dual.append centrality) (r.target config)
  obtain ⟨x, atPoint, _⟩ := Coords.advance_ok dimension dxSize share
  obtain ⟨l, atMultipliers, _⟩ := Coords.advance_ok count dlSize share
  have moves : Moves config p s r centrality dx dl share ⟨x, l, s.finished⟩ :=
    ⟨atCentrality, atDirection, atShare, atPoint, atMultipliers, rfl⟩
  exact ⟨_, step_of_moves apart moves, rfl⟩

end

end Downhill.InteriorPoint
