import Downhill.Proofs.Affine
import Downhill.Proofs.DynamicBarrier.Promise
import Downhill.Proofs.GradientDescent.Rate
import Downhill.Proofs.InteriorPoint.Invariant
import Downhill.Proofs.ProximalGradient
import Downhill.Proofs.Safety.Composite
import Downhill.Proofs.Safety.Constrained
import Downhill.Proofs.Safety.Unconstrained
import Downhill.Proofs.WindowedNewton.Descent

namespace Downhill

/-- A window that is full has a pair to drop. -/
theorem WindowedNewton.pair_of_full {α : Type} [Scalar α] {config : Config α} {rows : Nat}
    (valid : schema.validate config = .ok ()) (full : config.rows.toNat ≤ rows) : 2 ≤ rows := by
  simp only [schema, Outcome.bind_eq_ok, requireEvenRows_eq_ok] at valid
  obtain ⟨_, ⟨least, _⟩, _⟩ := valid
  exact least.trans full

/-- In any arithmetic, with a valid configuration and on a problem that answers in the dimension of the start,
no operation meets operands that do not fit together, and points, multipliers and windows keep their sizes. A
method fails only where its start is refused or a linear system of a step is singular. -/
theorem every_method_safe {α : Type} [Scalar α] (x : Coords α) :
    (∀ f : Objective α, f.Complete x.size →
      (∀ config : GradientDescent.Config α, GradientDescent.schema.validate config = .ok () →
        GradientDescent.method.Safe config f x (fun s => s.point.size = x.size) (fun _ => False) fun _ => False) ∧
      (∀ config : Acceleration.Config α, Acceleration.schema.validate config = .ok () →
        Acceleration.method.Safe config f x (fun s => s.point.size = x.size ∧ s.leading.size = x.size)
          (fun _ => False) fun _ => False) ∧
      (∀ config : Newton.Config α, Newton.schema.validate config = .ok () →
        Newton.method.Safe config f x (fun s => s.point.size = x.size) (fun _ => False)
          fun why => why = .singularSystem "Newton direction") ∧
      (∀ config : WindowedNewton.Config α, WindowedNewton.schema.validate config = .ok () →
        WindowedNewton.method.Safe config f x
          (fun s => s.point.size = x.size ∧ ∀ window, s.window = some window →
            window.width = x.size ∧ (config.rows.toNat ≤ window.height → 2 ≤ window.height))
          (fun _ => False) fun why => why = .singularSystem "limited-memory Newton direction") ∧
      ∀ (σ : Type) (next : σ → α × σ),
        (∀ config : RandomSubspace.Gradient.Config α, RandomSubspace.Gradient.schema.validate config = .ok () →
          (RandomSubspace.Gradient.method next).Safe config f x (fun s => s.point.size = x.size)
            (fun why => config.dim.toNat ≠ x.size ∧ why = .sizeMismatch config.dim.toNat x.size) fun _ => False) ∧
        ∀ config : RandomSubspace.Newton.Config α, RandomSubspace.Newton.schema.validate config = .ok () →
          (RandomSubspace.Newton.method next).Safe config f x (fun s => s.point.size = x.size)
            (fun why => config.dim.toNat ≠ x.size ∧ why = .sizeMismatch config.dim.toNat x.size)
            fun why => why = .singularSystem "subspace Newton direction") ∧
    (∀ p : Composite α, p.Complete x.size →
      (∀ config : ProximalGradient.Config α, ProximalGradient.schema.validate config = .ok () →
        ProximalGradient.method.Safe config p x (fun s => s.point.size = x.size) (fun _ => False) fun _ => False) ∧
      ∀ config : ProximalMomentum.Config α, ProximalMomentum.schema.validate config = .ok () →
        ProximalMomentum.method.Safe config p x (fun s => s.point.size = x.size ∧ s.previous.size = x.size)
          (fun _ => False) fun _ => False) ∧
    ∀ p : Constrained α, p.Complete x.size →
      (∀ config : GradientProjection.Config α, GradientProjection.schema.validate config = .ok () →
        GradientProjection.method.Safe config p x
          (fun s => s.point.size = x.size ∧ s.multipliers.size = s.active) (fun _ => False)
          fun why => why = .singularSystem "gradient projection multipliers") ∧
      (∀ (gradient d l : Coords α) (active : Table α) (position : Nat) (v : α), gradient.size = active.width →
        (GradientProjection.direction gradient active).outcome = .ok (d, l) →
        GradientProjection.lowest l = some (position, v) → position < active.height) ∧
      (∀ config : InteriorPoint.Config α, InteriorPoint.schema.validate config = .ok () →
        InteriorPoint.method.Safe config p x
          (fun s => s.point.size = x.size ∧ s.multipliers.size = p.constraints.count)
          (fun why => (p.constraints.count = 0 ∧ why = .refusedSetting "constraints" .noConstraint) ∨
            p.constraints.count ≠ 0 ∧ p.constraints.strictlyFeasible x = .ok false ∧ why = .infeasibleStart)
          fun why => why = .singularSystem "primal-dual KKT system") ∧
      ∀ config : DynamicBarrier.Config α, DynamicBarrier.schema.validate config = .ok () →
        DynamicBarrier.method.Safe config p x
          (fun s => s.point.size = x.size ∧ s.multipliers.size = p.constraints.count) (fun _ => False)
          fun why => ¬((0 : α) < 0.8 ∧ (0.8 : α) < 1) ∧
          why = .refusedSetting "beta" (.outsideUnitInterval 0.8) := by
  refine ⟨fun f complete => ⟨fun config valid => ?_, fun config valid => ?_, fun config valid => ?_,
    fun config valid => ?_, fun σ next => ⟨fun config valid => ?_, fun config valid => ?_⟩⟩,
    fun p complete => ⟨fun config valid => ?_, fun config valid => ?_⟩,
    fun p complete => ⟨fun config valid => ?_, fun gradient d l active position v size made found => ?_,
      fun config valid => ?_, fun config valid => ?_⟩⟩
  · exact (GradientDescent.guarded complete rfl config).safe valid
  · exact ((Acceleration.guarded complete rfl config).safe valid).weaken fun s sized => ⟨sized.point, sized.leading⟩
  · exact (Newton.guarded complete rfl config).safe valid
  · exact ((WindowedNewton.guarded complete rfl config).safe valid).weaken fun s sized =>
      ⟨sized.point, fun window present => ⟨sized.window window present, WindowedNewton.pair_of_full valid⟩⟩
  · exact ((RandomSubspace.Gradient.guarded next complete rfl config).safe valid).weaken fun s sized => sized.point
  · exact ((RandomSubspace.Newton.guarded next complete rfl config).safe valid).weaken fun s sized => sized.point
  · exact (ProximalGradient.guarded complete rfl config).safe valid
  · exact ((ProximalMomentum.guarded complete rfl config).safe valid).weaken fun s placed =>
      ⟨placed.size, placed.same⟩
  · exact ((GradientProjection.guarded complete.constraints complete.objective.toConforming rfl config).safe
      valid).weaken fun s sized => ⟨sized.point, sized.multipliers⟩
  · exact GradientProjection.dropped_inside size made found
  · exact ((InteriorPoint.guarded complete rfl config).safe valid).weaken fun s sized =>
      ⟨sized.point, sized.multipliers⟩
  · exact (DynamicBarrier.guarded complete rfl valid).safe valid

/-- Runs of the methods from the point with two coordinates of one, on a slanted quadratic, with a soft threshold
where a method takes one, and below the point with two coordinates of three where it takes constraints. -/
theorem every_method_safe_slanted :
    let x : Coords ℝ := .constant 2 1
    let p : Composite ℝ := ⟨.slanted, .softThreshold 1⟩
    let q : Constrained ℝ := ⟨.slanted, .linear (.identity 2) (.constant 2 3)⟩
    let watch : Watch ℝ Unit := .none
    let next : Unit → ℝ × Unit := fun _ => (2, ())
    ∀ budget,
      (∃ summary, (GradientDescent.method.run ⟨0.125⟩ .slanted watch () () x budget).1 = .ok summary ∧
        summary.state.point.size = 2) ∧
      (∃ summary, (Acceleration.method.run ⟨0.125⟩ .slanted watch () () x budget).1 = .ok summary ∧
        summary.state.point.size = 2 ∧ summary.state.leading.size = 2) ∧
      ((∃ summary, (Newton.method.run ⟨0.25, 0.5⟩ .slanted watch () () x budget).1 = .ok summary ∧
          summary.state.point.size = 2) ∨
        ∃ why, (Newton.method.run ⟨0.25, 0.5⟩ .slanted watch () () x budget).1 = .error (.failure why) ∧
          why = .singularSystem "Newton direction") ∧
      ((∃ summary, (WindowedNewton.method.run ⟨4, 0.5, 0.25, 0.5⟩ .slanted watch () () x budget).1 = .ok summary ∧
          summary.state.point.size = 2 ∧ ∀ window, summary.state.window = some window →
            window.width = 2 ∧ (4 ≤ window.height → 2 ≤ window.height)) ∨
        ∃ why, (WindowedNewton.method.run ⟨4, 0.5, 0.25, 0.5⟩ .slanted watch () () x budget).1 =
          .error (.failure why) ∧ why = .singularSystem "limited-memory Newton direction") ∧
      (∃ summary, ((RandomSubspace.Gradient.method next).run ⟨1, 1, 2, .random, 0.25, 0.5⟩ .slanted watch () () x
        budget).1 = .ok summary ∧ summary.state.point.size = 2) ∧
      ((∃ summary, ((RandomSubspace.Newton.method next).run ⟨2, 1, .random, 0.25, 0.5⟩ .slanted watch () () x
          budget).1 = .ok summary ∧ summary.state.point.size = 2) ∨
        ∃ why, ((RandomSubspace.Newton.method next).run ⟨2, 1, .random, 0.25, 0.5⟩ .slanted watch ()
        () x budget).1 =
          .error (.failure why) ∧ why = .singularSystem "subspace Newton direction") ∧
      (∃ summary, (ProximalGradient.method.run ⟨0.25, 0.5⟩ p watch () () x budget).1 = .ok summary ∧
        summary.state.point.size = 2) ∧
      (∃ summary, (ProximalMomentum.method.run ⟨true, 0.5, 0.25⟩ p watch () () x budget).1 = .ok summary ∧
        summary.state.point.size = 2 ∧ summary.state.previous.size = 2) ∧
      ((∃ summary, (GradientProjection.method.run ⟨0.125, 0.25, 1, 0.5⟩ q watch () () x budget).1 = .ok summary ∧
          summary.state.point.size = 2 ∧ summary.state.multipliers.size = summary.state.active) ∨
        ∃ why, (GradientProjection.method.run ⟨0.125, 0.25, 1, 0.5⟩ q watch () () x budget).1 =
          .error (.failure why) ∧ why = .singularSystem "gradient projection multipliers") ∧
      ((∃ summary, (InteriorPoint.method.run ⟨8, 0.125, 0.125, 0.25, 0.5⟩ q watch () () x budget).1 = .ok summary ∧
          summary.state.point.size = 2 ∧ summary.state.multipliers.size = 2) ∨
        ∃ why, (InteriorPoint.method.run ⟨8, 0.125, 0.125, 0.25, 0.5⟩ q watch () () x budget).1 =
          .error (.failure why) ∧ why = .singularSystem "primal-dual KKT system") ∧
      ∃ summary, (DynamicBarrier.method.run ⟨0.125, 1, 1, .values, 0.25, 4⟩ q watch () () x budget).1 =
      .ok summary ∧
        summary.state.point.size = 2 ∧ summary.state.multipliers.size = 2 := by
  intro x p q watch next budget
  obtain ⟨alone, composite, constrained⟩ := every_method_safe x
  have complete : Objective.slanted.Complete x.size :=
    Objective.quadratic_complete Table.height_slanted rfl (Coords.size_constant 2 0)
  obtain ⟨descent, acceleration, newton, windowed, subspace⟩ := alone .slanted complete
  obtain ⟨reduced, solved⟩ := subspace Unit next
  have thresholds (u : Coords ℝ) (t : ℝ) (size : u.size = x.size) : ∃ v, p.prox u t = .ok v ∧ v.size = x.size :=
    ⟨_, rfl, (Coords.size_map _ _).trans size⟩
  obtain ⟨proximal, momentum⟩ := composite p ⟨complete, thresholds⟩
  have conforming : q.constraints.Conforming x.size :=
    Constraints.linear_conforming (Table.height_ofFn _ _ _) rfl
  have inside : q.constraints.strictlyFeasible x = .ok true :=
    InteriorPoint.strictlyFeasible_of_below (Coords.size_constant _ _) (Coords.size_constant _ _) fun i => by
      rw [Coords.vec_constant, Coords.vec_constant]
      norm_num
  obtain ⟨projection, _, interior, barrier⟩ := constrained q ⟨complete, conforming⟩
  have goes (why : Failure ℝ) : ¬False := id
  refine ⟨?_, ?_, ?_, ?_, ?_, ?_, ?_, ?_, ?_, ?_, ?_⟩
  · exact (descent ⟨0.125⟩ (GradientDescent.validate_eq_ok.mpr (by norm_num))).run_ok rfl goes goes () () budget
  · exact (acceleration ⟨0.125⟩ (GradientDescent.validate_eq_ok.mpr (by norm_num))).run_ok rfl goes goes ()
      () budget
  · exact (newton ⟨0.25, 0.5⟩ (Newton.validate_eq_ok.mpr (by norm_num))).run_of_accepted rfl goes () () budget
  · exact (windowed ⟨4, 0.5, 0.25, 0.5⟩
      (WindowedNewton.validate_eq_ok.mpr ⟨by decide, by norm_num⟩)).run_of_accepted rfl goes () () budget
  · exact (reduced ⟨1, 1, 2, .random, 0.25, 0.5⟩ (RandomSubspace.Gradient.validate_eq_ok.mpr
      ⟨⟨rfl, one_pos⟩, by decide, by norm_num⟩)).run_ok rfl (fun _ other => other.1 rfl) goes () () budget
  · exact (solved ⟨2, 1, .random, 0.25, 0.5⟩ (RandomSubspace.Newton.validate_eq_ok.mpr
      ⟨by decide, by norm_num⟩)).run_of_accepted rfl (fun _ other => other.1 rfl) () () budget
  · exact (proximal ⟨0.25, 0.5⟩ (ProximalGradient.validate_eq_ok.mpr (by norm_num))).run_ok rfl goes goes ()
      () budget
  · exact (momentum ⟨true, 0.5, 0.25⟩ (ProximalMomentum.validate_eq_ok.mpr (by norm_num))).run_ok rfl goes goes ()
      ()
      budget
  · exact (projection ⟨0.125, 0.25, 1, 0.5⟩ (by simp [GradientProjection.schema]; norm_num)).run_of_accepted
      rfl goes () () budget
  · refine (interior ⟨8, 0.125, 0.125, 0.25, 0.5⟩
      (InteriorPoint.validate_eq_ok.mpr (by norm_num))).run_of_accepted rfl ?_ () () budget
    rintro why (⟨unconstrained, _⟩ | ⟨_, outside, _⟩)
    · cases unconstrained
    · cases inside.symm.trans outside
  · exact (barrier ⟨0.125, 1, 1, .values, 0.25, 4⟩ (DynamicBarrier.validate_eq_ok.mpr
      ⟨by norm_num, by norm_num, by norm_num, by norm_num, by decide⟩)).run_ok rfl goes
        (fun _ refused => refused.1 (by norm_num)) () () budget

end Downhill
