import Downhill.Proofs.DynamicBarrier.Admissible
import Downhill.Proofs.GradientProjection.ActiveSet
import Downhill.Proofs.GradientProjection.Step
import Downhill.Proofs.InteriorPoint.Newton
import Downhill.Proofs.Run.Safety
import Downhill.Proofs.Search.Feasibility
import Downhill.Proofs.Shapes

namespace Downhill

variable {α : Type} [Scalar α] {p : Constrained α} {n : Nat} {x : Coords α}

theorem Constraints.Conforming.strictlyFeasible_ok {c : Constraints α} (conforming : c.Conforming n)
    (size : x.size = n) : ∃ inside, c.strictlyFeasible x = .ok inside := by
  obtain ⟨values, atValues, _⟩ := conforming.values x size
  exact ⟨_, by simp only [Constraints.strictlyFeasible, atValues, bind, Except.bind]; rfl⟩

namespace GradientProjection

variable {config : Config α} {s : State α}

/-- The point has the dimension of the problem, and there is a multiplier for each row of the last direction. -/
structure Sized (n : Nat) (s : State α) : Prop where
  point : s.point.size = n
  multipliers : s.multipliers.size = s.active

theorem direction_ends {gradient : Coords α} {active : Table α} (size : gradient.size = n)
    (wide : active.width = n) : (direction gradient active).Ends (fun r => r.1.size = n ∧ r.2.size = active.height)
      fun why => why = .singularSystem "gradient projection multipliers" := by
  unfold direction
  split
  · rename_i free
    exact Work.ends_pure ⟨(Coords.size_neg gradient).trans size, (Coords.size_constant 0 _).trans free.symm⟩
  · have rows : active.Shaped active.height n := ⟨rfl, wide⟩
    refine (Work.ends_checked (rows.mul_ok rows.transpose)).bind fun gram square => ?_
    refine (Work.ends_checked (Table.apply_ok (wide.trans size.symm))).bind fun slopes slSize => ?_
    refine (solve_ends square.high ((Coords.size_neg slopes).trans slSize) _).bind fun l lSize => ?_
    refine (Work.ends_checked (Table.combineRows_ok lSize)).bind fun push pSize => ?_
    have subtracted := Coords.sub_ok ((Coords.size_neg gradient).trans size) (pSize.trans wide)
    exact (Work.ends_checked subtracted).bind fun d dSize => Work.ends_pure ⟨dSize, lSize⟩

variable (constraints : p.constraints.Conforming n)

include constraints

theorem moved_ends (fits : s.point.size = n) {active : Nat} {d l : Coords α} (size : d.size = n)
    (count : l.size = active) {Fails : Failure α → Prop} :
    (moved config p.constraints s active d l).Ends (Sized n) Fails := by
  have searched := Downhill.Feasible.run_ok constraints fits size tag config.alpha config.beta
  refine (Work.ends_some searched).bind fun t _ => ?_
  exact (Work.ends_checked (Coords.advance_ok fits size t)).bind fun y ySize => Work.ends_pure ⟨ySize, count⟩

theorem step_ends (objective : p.objective.Conforming n) (fits : s.point.size = n) :
    (step config p s).Ends (Sized n) fun why => why = .singularSystem "gradient projection multipliers" := by
  unfold step
  refine (Work.ends_checked (constraints.values s.point fits)).bind fun values vSize => ?_
  refine (Work.ends_checked (constraints.jacobian s.point fits)).bind fun J ⟨high, wide⟩ => ?_
  refine (Work.ends_checked (activeRows_wide config (vSize.trans high.symm))).bind fun active same => ?_
  refine (Work.ends_checked (objective.gradient s.point fits)).bind fun gradient gSize => ?_
  have across : active.width = n := same.trans wide
  refine (direction_ends gSize across).bind fun (d, l) ⟨dSize, lSize⟩ => ?_
  dsimp only
  split
  · split
    · exact Work.ends_pure ⟨fits, lSize⟩
    · split
      · exact moved_ends constraints fits dSize lSize
      · rename_i position _ _
        have kept : (withoutRow active position).width = n := across
        refine (Work.ends_note _).bind fun _ _ => ?_
        refine (direction_ends gSize kept).bind fun (d, l) ⟨dSize, lSize⟩ => ?_
        exact moved_ends constraints fits dSize lSize
  · exact moved_ends constraints fits dSize lSize

theorem guarded (objective : p.objective.Conforming n) (size : x.size = n) (config : Config α) :
    method.Guarded config p x (Sized n) (fun _ => False)
      fun why => why = .singularSystem "gradient projection multipliers" where
  start := Work.ends_pure ⟨size, Coords.size_constant 0 _⟩
  step _ _ sized := step_ends constraints objective sized.point
  tracked s sized quantity member := by
    obtain rfl | rfl := List.mem_pair.mp member
    · exact objective.value s.point sized.point
    · exact ⟨_, rfl⟩

omit constraints in
/-- The row that is dropped is one of those that have a multiplier. -/
theorem dropped_inside {gradient d l : Coords α} {active : Table α} {position : Nat} {v : α}
    (size : gradient.size = active.width) (made : (direction gradient active).outcome = .ok (d, l))
    (found : lowest l = some (position, v)) : position < active.height := by
  obtain ⟨inside, _⟩ := getElem_of_lowest found
  obtain ⟨_, count⟩ := (direction_ends size rfl).of_ok made
  exact inside.trans_eq count

end GradientProjection

theorem DynamicBarrier.guarded (complete : p.Complete n) (size : x.size = n) {config : Config α}
    (valid : schema.validate config = .ok ()) :
    method.Guarded config p x (fun s => s.point.size = n ∧ s.multipliers.size = p.constraints.count)
    (fun _ => False)
      FactorRefused where
  start := Work.ends_pure ⟨size, Coords.size_constant _ _⟩
  step _ s fits := by
    have ends : (step config p s).Ends (fun s' => s'.point.size = n ∧ s'.multipliers.size = p.constraints.count ∧
        ∀ v ∈ s'.multipliers.toList, True) FactorRefused :=
      step_ends trivial (fun _ => trivial) valid (fun _ => trivial) complete.objective.toConforming
      complete.constraints
        fits.1
    exact ends.weaken fun s' ⟨kept, count, _⟩ => ⟨kept, count⟩
  tracked s fits quantity member := by
    obtain rfl := List.mem_singleton.mp member
    exact complete.objective.value s.point fits.1

namespace InteriorPoint

variable {config : Config α} {s : MultiplierState α} {m : Nat}

/-- The point has the dimension of the problem, and there is a multiplier for each constraint. -/
structure Sized (p : Constrained α) (n : Nat) (s : MultiplierState α) : Prop where
  point : s.point.size = n
  multipliers : s.multipliers.size = p.constraints.count

theorem system_shaped {curvature jacobian : Table α} {values multipliers : Coords α} (square : curvature.Shaped n n)
    (rows : jacobian.Shaped m n) (size : values.size = m) (count : multipliers.size = m) :
    ∃ M, system curvature jacobian values multipliers = .ok M ∧ M.Shaped (n + m) (n + m) := by
  obtain ⟨rfl, across⟩ := square
  obtain ⟨rfl, wide⟩ := rows
  have enough : curvature.height = 0 ∨ values.size ≤ multipliers.size := Or.inr (size.trans count.symm).le
  refine ⟨_, by rw [system, dif_pos across, dif_pos wide, dif_pos size.symm, dif_pos enough], ?_⟩
  exact ⟨(Table.height_ofFn _ _ _).trans (congrArg _ size), congrArg _ size⟩

theorem direction_ends {hessian curvature jacobian : Table α} {values multipliers dual centrality : Coords α}
    (square : hessian.Shaped n n) (sum : curvature.Shaped n n) (rows : jacobian.Shaped m n) (size : values.size = m)
    (count : multipliers.size = m) (dualSize : dual.size = n) (centralitySize : centrality.size = m) :
    (direction hessian curvature jacobian values multipliers dual centrality).Ends
      (fun r => r.1.size = n ∧ r.2.size = m) fun why => why = .singularSystem "primal-dual KKT system" := by
  unfold direction
  refine (Work.ends_checked (square.add_ok sum)).bind fun both shaped => ?_
  refine (Work.ends_checked (system_shaped shaped rows size count)).bind fun M whole => ?_
  have right : (dual.append centrality).neg.size = n + m := by
    rw [Coords.size_neg, Coords.size_append, dualSize, centralitySize]
  refine (solve_ends whole.high right _).bind fun x xSize => Work.ends_pure ?_
  rw [square.high]
  have entries : x.entries.size = n + m := xSize
  constructor
  · simp [Coords.take, Coords.size, entries]
  · simp [Coords.drop, Coords.size, entries]

theorem gap_ok {values l : Coords α} (size : values.size = m) (count : l.size = m) :
    ∃ eta, gap values l = .ok eta := by
  obtain ⟨v, product⟩ := Coords.dot_ok size count
  exact ⟨-v, by simp only [gap, product, bind, Except.bind]; rfl⟩

variable (complete : p.Complete n)

include complete

theorem step_ends (sized : Sized p n s) :
    (step config p s).Ends (Sized p n) fun why => why = .singularSystem "primal-dual KKT system" := by
  have objective := complete.objective.toConforming
  have constraints := complete.constraints
  unfold step
  refine (Work.ends_checked (constraints.values _ sized.point)).bind fun values size => ?_
  refine (Work.ends_checked (constraints.jacobian _ sized.point)).bind fun J ⟨high, wide⟩ => ?_
  refine (Work.ends_checked (complete.objective.hessian _ sized.point)).bind fun hessian ⟨tall, across⟩ => ?_
  refine (Work.ends_checked (objective.gradient _ sized.point)).bind fun gradient gSize => ?_
  refine (Work.ends_checked (constraints.curvature _ _ sized.point sized.multipliers)).bind fun sum ⟨top, side⟩ =>
    ?_
  refine (Work.ends_found (gap_ok size sized.multipliers)).bind fun eta _ => ?_
  dsimp only
  have paired : s.multipliers.size = J.height := sized.multipliers.trans high.symm
  refine (Work.ends_checked (dualResidual_ok gSize wide paired)).bind fun dual dSize => ?_
  split
  · exact Work.ends_pure ⟨sized.point, sized.multipliers⟩
  refine (Work.ends_checked (centralityResidual_ok size sized.multipliers _)).bind fun centrality cSize => ?_
  refine (direction_ends ⟨tall, across⟩ ⟨top, side⟩ ⟨high, wide⟩ size sized.multipliers dSize cSize).bind
    fun (dx, dl) ⟨dxSize, dlSize⟩ => ?_
  have searched := stepSize_ok config objective constraints sized.point sized.multipliers dxSize dlSize
  refine (Work.ends_some (searched _ _)).bind fun share _ => (Work.ends_note _).bind fun _ _ => ?_
  refine (Work.ends_checked (Coords.advance_ok sized.point dxSize share)).bind fun y ySize => ?_
  exact (Work.ends_checked (Coords.advance_ok sized.multipliers dlSize share)).bind fun l lSize =>
    Work.ends_pure ⟨ySize, lSize⟩

/-- A start is refused where there is no constraint, and at a point that is not strictly feasible. -/
theorem start_ends (size : x.size = n) : (start p x).Ends (Sized p n) fun why =>
    (p.constraints.count = 0 ∧ why = .refusedSetting "constraints" .noConstraint) ∨
      p.constraints.count ≠ 0 ∧ p.constraints.strictlyFeasible x = .ok false ∧ why = .infeasibleStart := by
  obtain ⟨inside, tested⟩ := complete.constraints.strictlyFeasible_ok size
  by_cases unconstrained : p.constraints.count = 0
  · refine Or.inr ⟨_, ?_, Or.inl ⟨unconstrained, rfl⟩⟩
    unfold start
    dsimp only
    rw [if_pos unconstrained]
    rfl
  · cases inside with
    | true => exact Work.ends_ok ⟨_, start_of_strict unconstrained tested, size, Coords.size_constant _ _⟩
    | false =>
      refine Or.inr ⟨.infeasibleStart, ?_, Or.inr ⟨unconstrained, tested, rfl⟩⟩
      unfold start
      dsimp only
      rw [if_neg unconstrained, tested]
      rfl

theorem tracked_ok (sized : Sized p n s) : ∀ quantity ∈ method.tracked p, ∃ v, quantity.2 s = .ok v := by
  obtain ⟨values, atValues, size⟩ := complete.constraints.values _ sized.point
  obtain ⟨J, atJacobian, high, wide⟩ := complete.constraints.jacobian _ sized.point
  obtain ⟨gradient, atGradient, gSize⟩ := complete.objective.gradient _ sized.point
  obtain ⟨eta, atGap⟩ := gap_ok size sized.multipliers
  obtain ⟨dual, atDual, _⟩ := dualResidual_ok gSize wide (sized.multipliers.trans high.symm)
  intro quantity member
  simp only [Method.tracked, method, List.map_cons, List.map_nil, List.mem_cons, List.not_mem_nil,
    or_false] at member
  obtain rfl | rfl | rfl := member
  · exact complete.objective.value _ sized.point
  · exact ⟨eta, Outcome.bind_eq_ok.mpr ⟨values, atValues, atGap⟩⟩
  · exact ⟨dual.norm, by
      simp only [residualMeasure, atGradient, atJacobian, atDual, bind, Except.bind, pure, Except.pure]⟩

theorem guarded (size : x.size = n) (config : Config α) : method.Guarded config p x (Sized p n) (fun why =>
      (p.constraints.count = 0 ∧ why = .refusedSetting "constraints" .noConstraint) ∨
        p.constraints.count ≠ 0 ∧ p.constraints.strictlyFeasible x = .ok false ∧ why = .infeasibleStart)
      fun why => why = .singularSystem "primal-dual KKT system" where
  start := start_ends complete size
  step _ _ sized := step_ends complete sized
  tracked _ sized := tracked_ok complete sized

end InteriorPoint

end Downhill
