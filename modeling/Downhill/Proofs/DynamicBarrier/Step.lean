import Downhill.Proofs.DynamicBarrier.Dual
import Downhill.Proofs.Run.Trajectory

namespace Downhill.DynamicBarrier

variable {α : Type} [Scalar α] {config : Config α} {p : Constrained α} {s s' : MultiplierState α}

/-- What a step has computed on its way to the state it leads to. -/
structure Moves (config : Config α) (p : Constrained α) (s : MultiplierState α) (gradient : Coords α)
    (J : Table α) (before l d : Coords α) (s' : MultiplierState α) : Prop where
  gradient_eq : p.objective.gradient s.point = .ok gradient
  jacobian_eq : p.constraints.jacobian s.point = .ok J
  values_eq : p.constraints.values s.point = .ok before
  multipliers_eq : (multipliers config gradient J (demands config before J)).outcome = .ok l
  direction_eq : direction gradient J l = .ok d
  point_eq : s.point.advance config.rate d = .ok s'.point
  kept_eq : s'.multipliers = l
  mark_eq : s'.finished = s.finished

theorem step_eq_ok : (step config p s).outcome = .ok s' ↔
    ∃ gradient J before l d, Moves config p s gradient J before l d s' := by
  simp only [step, Work.outcome_bind_eq_ok, Work.outcome_checked_eq_ok, Work.outcome_pure_eq_ok]
  constructor
  · rintro ⟨gradient, atGradient, J, atJacobian, before, atValues, l, solved, d, found, y, moved, rfl⟩
    exact ⟨gradient, J, before, l, d, atGradient, atJacobian, atValues, solved, found, moved, rfl, rfl⟩
  · rintro ⟨gradient, J, before, l, d, moves⟩
    refine ⟨gradient, moves.gradient_eq, J, moves.jacobian_eq, before, moves.values_eq, l, moves.multipliers_eq, d,
      moves.direction_eq, s'.point, moves.point_eq, ?_⟩
    rw [← moves.kept_eq, ← moves.mark_eq]

theorem size_demands {before : Coords α} {J : Table α} (same : before.size = J.height) :
    (demands config before J).size = J.height := by
  unfold demands
  split
  · exact (Coords.size_scale before _).trans same
  · exact Array.size_map

/-- Where the multipliers come to an end, one for each constraint, so does the step. -/
theorem moves_ok {n : Nat} {gradient before l : Coords α} {J : Table α} (size : s.point.size = n)
    (atGradient : p.objective.gradient s.point = .ok gradient) (left : gradient.size = n)
    (atJacobian : p.constraints.jacobian s.point = .ok J) (wide : J.width = n)
    (atValues : p.constraints.values s.point = .ok before) (same : before.size = J.height)
    (solved : (multipliers config gradient J (demands config before J)).outcome = .ok l)
    (each : l.size = J.height) :
    ∃ d s', Moves config p s gradient J before l d s' ∧ s'.point.size = n := by
  have fits : Dual.Fits ⟨gradient, J, demands config before J⟩ J.height n := ⟨left, rfl, wide, size_demands same⟩
  obtain ⟨d, found, dSize⟩ := fits.direction_ok each
  obtain ⟨y, moved, ySize⟩ := Coords.advance_ok size dSize config.rate
  exact ⟨d, ⟨y, l, s.finished⟩, ⟨atGradient, atJacobian, atValues, solved, found, moved, rfl, rfl⟩, ySize⟩

theorem multipliers_of_none {gradient barrier : Coords α} {J : Table α} (high : J.height = 0) :
    (multipliers config gradient J barrier).outcome = .ok (.zeros 0) := by
  rw [multipliers, dif_pos high]
  rfl

/-- The multiplier of a single constraint is a quotient where the constraint changes at all, and it is clipped at
zero. -/
theorem single_eq_ok {gradient row barrier : Coords α} (same : gradient.size = row.size)
    (present : 0 < barrier.size) : ∃ l, single gradient row barrier = .ok (if 0 ≤ l then l else 0) ∧
      (0 < row.pairing row → l = (barrier[0] - gradient.pairing row) / row.pairing row) := by
  have product : gradient.dot row = .ok (gradient.pairing row) := if_pos same
  by_cases above : 0 < row.pairing row
  · refine ⟨(barrier[0] - gradient.pairing row) / row.pairing row, ?_, fun _ => rfl⟩
    simp only [single, if_pos above, dif_pos present, product, bind, Except.bind]
    rfl
  · refine ⟨0, ?_, fun positive => absurd positive above⟩
    simp only [single, if_neg above, bind, Except.bind]
    rfl

theorem multipliers_of_one {gradient row barrier : Coords α} {J : Table α} {l : α} (high : J.height = 1)
    (atRow : J.row ⟨0, high ▸ one_pos⟩ = row) (found : single gradient row barrier = .ok l) :
    (multipliers config gradient J barrier).outcome = .ok (.constant 1 l) := by
  subst atRow
  rw [multipliers, dif_neg (by omega), if_pos high]
  simp only [Work.outcome_bind_eq_ok, Work.outcome_checked_eq_ok, Work.outcome_pure_eq_ok]
  exact ⟨l, found, rfl⟩

theorem multipliers_of_several {gradient barrier : Coords α} {J : Table α} (several : 2 ≤ J.height) :
    multipliers config gradient J barrier = nested config ⟨gradient, J, barrier⟩ J.height := by
  rw [multipliers, dif_neg (by omega), if_neg (by omega)]

/-- The nested solve gives the point that it ends with, finished or not. -/
theorem nested_eq_ok {dual : Dual α} {count : Nat} {l : Coords α} :
    (nested config dual count).outcome = .ok l ↔
      ProximalMomentum.schema.validate (innerConfig config) = .ok () ∧
        ∃ summary, (ProximalMomentum.method.solve (innerConfig config) ⟨dual.objective, .nonnegative⟩ (.zeros count)
          config.innerBudget.toNat).outcome = .ok summary ∧ summary.state.point = l := by
  simp only [nested, Work.outcome_bind_eq_ok, Work.outcome_except_eq_ok, Work.outcome_note_bind,
    Work.outcome_pure_eq_ok]
  constructor
  · rintro ⟨_, valid, solved⟩
    exact ⟨valid, solved⟩
  · rintro ⟨valid, solved⟩
    exact ⟨(), valid, solved⟩

end Downhill.DynamicBarrier
