import Mathlib
import Downhill.Method.InteriorPoint
import Downhill.Proofs.Search.Shrinking
import Downhill.Proofs.Vectors

namespace Downhill.InteriorPoint

variable {α : Type} [Scalar α] {config : Config α} {p : Constrained α} {s s' : MultiplierState α}

/-- What a step reads of the problem at a state. -/
structure Reading (p : Constrained α) (s : MultiplierState α) where
  values : Coords α
  jacobian : Table α
  hessian : Table α
  gradient : Coords α
  curvature : Table α
  eta : α
  dual : Coords α
  values_eq : p.constraints.values s.point = .ok values
  jacobian_eq : p.constraints.jacobian s.point = .ok jacobian
  hessian_eq : p.objective.hessian s.point = .ok hessian
  gradient_eq : p.objective.gradient s.point = .ok gradient
  curvature_eq : p.constraints.curvature s.point s.multipliers = .ok curvature
  gap_eq : gap values s.multipliers = .ok eta
  dual_eq : dualResidual gradient jacobian s.multipliers = .ok dual

namespace Reading

/-- Both the dual residual and the gap are within their tolerances. -/
def Converged (r : Reading p s) (config : Config α) : Prop :=
  r.dual.norm ≤ config.epsFeas ∧ r.eta ≤ config.eps

/-- The parameter of the perturbed complementarity. -/
def target (r : Reading p s) (config : Config α) : α :=
  config.mu * (s.multipliers.size : α) / r.eta

end Reading

/-- A step that moves, along `dx` and `dl` by the share that the search found. -/
structure Moves (config : Config α) (p : Constrained α) (s : MultiplierState α) (r : Reading p s)
    (centrality dx dl : Coords α) (share : α) (s' : MultiplierState α) : Prop where
  centrality_eq : centralityResidual r.values s.multipliers (r.target config) = .ok centrality
  direction_eq : (direction r.hessian r.curvature r.jacobian r.values s.multipliers r.dual
    centrality).outcome = .ok (dx, dl)
  share_eq : (stepSize config p s dx dl (r.dual.append centrality) (r.target config)).outcome =
    .ok share
  point_eq : s.point.advance share dx = .ok s'.point
  multipliers_eq : s.multipliers.advance share dl = .ok s'.multipliers
  finished_eq : s'.finished = s.finished

/-- A step that does not fail either finds the state converged or moves. -/
theorem step_cases (made : (step config p s).outcome = .ok s') :
    ∃ r : Reading p s, (r.Converged config ∧ s' = { s with finished := true }) ∨
      (¬ r.Converged config ∧ ∃ centrality dx dl share, Moves config p s r centrality dx dl share s') := by
  simp only [step, Work.outcome_bind_eq_ok, Work.outcome_checked_eq_ok] at made
  obtain ⟨values, atValues, jacobian, atJacobian, hessian, atHessian, gradient, atGradient, curvature,
    atCurvature, eta, atGap, dual, atDual, rest⟩ := made
  refine ⟨⟨values, jacobian, hessian, gradient, curvature, eta, dual, atValues, atJacobian, atHessian,
    atGradient, atCurvature, atGap, atDual⟩, ?_⟩
  split at rest
  · rename_i converged
    cases rest
    exact Or.inl ⟨converged, rfl⟩
  · rename_i apart
    simp only [Work.outcome_bind_eq_ok, Work.outcome_checked_eq_ok, Prod.exists] at rest
    obtain ⟨centrality, atCentrality, dx, dl, atDirection, share, atShare, _, _, point, atPoint,
      multipliers, atMultipliers, done⟩ := rest
    cases done
    exact Or.inr ⟨apart, centrality, dx, dl, share, atCentrality, atDirection, atShare, atPoint,
      atMultipliers, rfl⟩

/-- At a state where both tolerances are met nothing moves. -/
theorem step_of_converged (r : Reading p s) (converged : r.Converged config) :
    (step config p s).outcome = .ok { s with finished := true } := by
  simp only [step, Work.outcome_bind_eq_ok, Work.outcome_checked_eq_ok]
  refine ⟨r.values, r.values_eq, r.jacobian, r.jacobian_eq, r.hessian, r.hessian_eq, r.gradient,
    r.gradient_eq, r.curvature, r.curvature_eq, r.eta, r.gap_eq, r.dual, r.dual_eq, ?_⟩
  have met : r.dual.norm ≤ config.epsFeas ∧ r.eta ≤ config.eps := converged
  rw [if_pos met]
  rfl

/-- Away from the tolerances a step goes where its direction and its share lead. -/
theorem step_of_moves {r : Reading p s} (apart : ¬ r.Converged config) {centrality dx dl : Coords α}
    {share : α} (moves : Moves config p s r centrality dx dl share s') :
    (step config p s).outcome = .ok s' := by
  simp only [step, Work.outcome_bind_eq_ok, Work.outcome_checked_eq_ok]
  refine ⟨r.values, r.values_eq, r.jacobian, r.jacobian_eq, r.hessian, r.hessian_eq, r.gradient,
    r.gradient_eq, r.curvature, r.curvature_eq, r.eta, r.gap_eq, r.dual, r.dual_eq, ?_⟩
  have unmet : ¬ (r.dual.norm ≤ config.epsFeas ∧ r.eta ≤ config.eps) := apart
  rw [if_neg unmet]
  simp only [Work.outcome_bind_eq_ok, Work.outcome_checked_eq_ok, Prod.exists]
  refine ⟨centrality, moves.centrality_eq, dx, dl, moves.direction_eq, share, moves.share_eq, (), rfl,
    s'.point, moves.point_eq, s'.multipliers, moves.multipliers_eq, ?_⟩
  rw [← moves.finished_eq]
  rfl

theorem stepSize_eq_ok {dx dl r : Coords α} {t share : α} :
    (stepSize config p s dx dl r t).outcome = .ok share ↔
      ∃ last, Backtracking.run (attempt config p s dx dl r.norm t) config.beta maxShrinks
          (stepShare * maxDualStep s.multipliers dl) = .ok last ∧
        (last.accepted = true ∧ share = last.step ∨ last.accepted = false ∧ share = 0) := by
  simp only [stepSize, Work.outcome_bind_eq_ok, Work.outcome_checked_eq_ok]
  refine exists_congr fun last => and_congr_right fun _ => ?_
  cases last.accepted <;> simp [eq_comm (a := share)]

/-- The share is that of an accepted trial, or zero where every trial was refused. -/
theorem stepSize_cases {dx dl r : Coords α} {t share : α}
    (made : (stepSize config p s dx dl r t).outcome = .ok share) :
    ∃ last, Backtracking.EndsAt (attempt config p s dx dl r.norm t)
        (stepShare * maxDualStep s.multipliers dl) config.beta 0 maxShrinks last ∧
      (last.accepted = true ∧ share = last.step ∨ last.accepted = false ∧ share = 0) := by
  obtain ⟨last, found, chosen⟩ := stepSize_eq_ok.mp made
  exact ⟨last, Backtracking.run_endsAt found, chosen⟩

/-- What an accepted trial has checked, at the very point and multipliers that it formed. -/
theorem attempt_accepts {dx dl : Coords α} {start t share : α}
    (made : attempt config p s dx dl start t share = .ok ((), true)) :
    ∃ x l r, s.point.add (dx.scale share) = .ok x ∧ p.constraints.strictlyFeasible x = .ok true ∧
      s.multipliers.add (dl.scale share) = .ok l ∧ residual p x l t = .ok r ∧
      r.norm ≤ (1 - config.alpha * share) * start := by
  simp only [attempt, Outcome.bind_eq_ok] at made
  obtain ⟨x, atPoint, inside, feasible, rest⟩ := made
  cases inside with
  | false => cases rest
  | true =>
    simp only [if_true, Outcome.bind_eq_ok, Outcome.pure_eq_ok, Prod.mk.injEq,
      decide_eq_true_eq] at rest
    obtain ⟨l, atMultipliers, r, atResidual, _, small⟩ := rest
    exact ⟨x, l, r, atPoint, feasible, atMultipliers, atResidual, small⟩

/-- The search has accepted its last trial, which formed the point and the multipliers of `s'`. -/
structure AcceptedLast (config : Config α) (p : Constrained α) (s : MultiplierState α) (dx dl : Coords α)
    (start t share : α) (s' : MultiplierState α) : Prop where
  last : (Backtracking.tried (attempt config p s dx dl start t) config.beta maxShrinks
    (stepShare * maxDualStep s.multipliers dl)).getLast? = some share
  point_eq : s.point.add (dx.scale share) = .ok s'.point
  strict : p.constraints.strictlyFeasible s'.point = .ok true
  multipliers_eq : s.multipliers.add (dl.scale share) = .ok s'.multipliers
  residual_le : ∃ r, residual p s'.point s'.multipliers t = .ok r ∧
    r.norm ≤ (1 - config.alpha * share) * start

/-- Where the search accepts a trial, the step goes to the point and the multipliers formed there. -/
theorem Moves.acceptedLast (comm : ∀ v w : α, v * w = w * v) {r : Reading p s} {centrality dx dl : Coords α}
    {share : α} (moves : Moves config p s r centrality dx dl share s') :
    ∃ last, Backtracking.run
        (attempt config p s dx dl (r.dual.append centrality).norm (r.target config)) config.beta maxShrinks
        (stepShare * maxDualStep s.multipliers dl) = .ok last ∧
      (last.accepted = true → AcceptedLast config p s dx dl (r.dual.append centrality).norm
        (r.target config) share s') := by
  obtain ⟨last, searched, chosen⟩ := stepSize_eq_ok.mp moves.share_eq
  refine ⟨last, searched, fun accepted => ?_⟩
  obtain ⟨_, rfl⟩ | ⟨refused, _⟩ := chosen
  · have trial := (Backtracking.run_endsAt searched).trial
    rw [accepted] at trial
    obtain ⟨x, l, r', atPoint, feasible, atMultipliers, atResidual, small⟩ := attempt_accepts trial
    have point := moves.point_eq
    have multipliers := moves.multipliers_eq
    rw [Coords.advance_eq_add_scale comm] at point multipliers
    obtain rfl := Except.ok.inj (atPoint.symm.trans point)
    obtain rfl := Except.ok.inj (atMultipliers.symm.trans multipliers)
    exact ⟨(Backtracking.resume_tried searched).1, point, feasible, multipliers, r', atResidual, small⟩
  · cases accepted.symm.trans refused

/-- A share other than zero is one that the search has accepted. -/
theorem Moves.accepted_of_ne {r : Reading p s} {centrality dx dl : Coords α} {share : α}
    (moves : Moves config p s r centrality dx dl share s') (moved : share ≠ 0) {last : Backtracking α Unit}
    (searched : Backtracking.run (attempt config p s dx dl (r.dual.append centrality).norm (r.target config))
      config.beta maxShrinks (stepShare * maxDualStep s.multipliers dl) = .ok last) : last.accepted = true := by
  obtain ⟨_, same, ⟨accepted, _⟩ | ⟨_, still⟩⟩ := stepSize_eq_ok.mp moves.share_eq
  · exact Except.ok.inj (same.symm.trans searched) ▸ accepted
  · exact absurd still moved

/-- The method starts at a strictly feasible point of a problem with constraints, its multipliers one. -/
theorem start_cases {x : Coords α} (made : (start p x).outcome = .ok s) :
    p.constraints.count ≠ 0 ∧ p.constraints.strictlyFeasible x = .ok true ∧
      s = ⟨x, .constant p.constraints.count 1, false⟩ := by
  unfold start at made
  dsimp only at made
  split at made
  · simp at made
  · rename_i constrained
    simp only [Work.outcome_bind_eq_ok, Work.outcome_checked_eq_ok] at made
    obtain ⟨inside, feasible, rest⟩ := made
    cases inside with
    | false => cases rest
    | true =>
      cases rest
      exact ⟨constrained, feasible, rfl⟩

theorem start_of_strict {x : Coords α} (nonzero : p.constraints.count ≠ 0)
    (strict : p.constraints.strictlyFeasible x = .ok true) :
    (start p x).outcome = .ok ⟨x, .constant p.constraints.count 1, false⟩ := by
  unfold start
  dsimp only
  rw [if_neg nonzero]
  simp only [Work.outcome_bind_eq_ok, Work.outcome_checked_eq_ok]
  exact ⟨true, strict, rfl⟩

end Downhill.InteriorPoint
