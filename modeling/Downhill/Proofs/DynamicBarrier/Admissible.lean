import Downhill.Proofs.DynamicBarrier.Promise
import Downhill.Proofs.ProximalMomentum.Landing

namespace Downhill.DynamicBarrier

variable {α : Type} [Scalar α]

/-- A multiplier for each constraint, none of them negative. -/
structure Admissible (count : Nat) (l : Coords α) : Prop where
  size : l.size = count
  nonneg : ∀ v ∈ l.toList, 0 ≤ v

theorem admissible_constant (count : Nat) {v : α} (nonneg : 0 ≤ v) : Admissible count (.constant count v) :=
  ⟨Coords.size_constant _ _, Coords.forall_mem_constant count nonneg⟩

variable {config : Config α}

theorem ranges_of_valid (valid : schema.validate config = .ok ()) :
    (Scalar.isFinite config.rate = true ∧ Scalar.isFinite config.alpha = true ∧
      Scalar.isFinite config.beta = true ∧ Scalar.isFinite config.innerEps = true) ∧ 0 < config.innerEps := by
  simp only [schema, Outcome.bind_eq_ok, requirePositive_eq_ok, requireNonzero_eq_ok] at valid
  obtain ⟨_, ⟨rate, _⟩, _, ⟨alpha, _⟩, _, ⟨beta, _⟩, _, ⟨tolerance, positive⟩, _⟩ := valid
  exact ⟨⟨rate, alpha, beta, tolerance⟩, positive⟩

theorem toSettings_ok (valid : schema.validate config = .ok ()) :
    ∃ settings, schema.toSettings config = .ok settings := by
  obtain ⟨⟨rate, alpha, beta, tolerance⟩, _⟩ := ranges_of_valid valid
  obtain ⟨budget, counted⟩ : ∃ s : Setting α, Kind.count.write config.innerBudget = some s := by
    simp only [Kind.write]
    split
    · exact ⟨_, rfl⟩
    · exact ⟨_, rfl⟩
  simp only [schema, Schema.toSettings, Row.write, counted]
  simp [Kind.write, Kind.present, rate, alpha, beta, tolerance]

/-- The factor of the nested searches is no fraction in this arithmetic, and is refused for it. -/
def FactorRefused (why : Failure α) : Prop :=
  ¬((0 : α) < 0.8 ∧ (0.8 : α) < 1) ∧ why = .refusedSetting "beta" (.outsideUnitInterval 0.8)

theorem not_factorRefused (shrinks : (0 : α) < 0.8 ∧ (0.8 : α) < 1) (why : Failure α) : ¬FactorRefused why :=
  fun refused => refused.1 shrinks

theorem inner_valid (shrinks : (0 : α) < 0.8 ∧ (0.8 : α) < 1) (valid : schema.validate config = .ok ()) :
    ProximalMomentum.schema.validate (innerConfig config) = .ok () := by
  obtain ⟨⟨_, _, _, tolerance⟩, positive⟩ := ranges_of_valid valid
  simp only [ProximalMomentum.schema, Outcome.bind_eq_ok, requireFraction_eq_ok, requirePositive_eq_ok]
  exact ⟨(), shrinks, tolerance, positive⟩

theorem inner_refused (dull : ¬((0 : α) < 0.8 ∧ (0.8 : α) < 1)) :
    ProximalMomentum.schema.validate (innerConfig config) =
      .error (.refusedSetting "beta" (.outsideUnitInterval 0.8)) := by
  simp only [ProximalMomentum.schema, innerConfig, requireFraction, if_neg dull, bind, Except.bind]

section

variable {Each : α → Prop} (zero : Each 0) (raised : ∀ v, Each (Scalar.atLeast 0 v))
  (valid : schema.validate config = .ok ())

include zero raised valid

theorem nested_ends {dual : Dual α} {m n : Nat} (fits : dual.Fits m n) :
    (nested config dual m).Ends (fun l => l.size = m ∧ ∀ v ∈ l.toList, Each v) FactorRefused := by
  by_cases shrinks : (0 : α) < 0.8 ∧ (0.8 : α) < 1
  · have inner := inner_valid shrinks valid
    have steady : ProximalMomentum.method.Unfailing (innerConfig config) ⟨dual.objective, .nonnegative⟩ (.zeros m)
        (ProximalMomentum.Placed m fun l => ∀ v ∈ l.toList, Each v) :=
      ProximalMomentum.unfailing fits.conforming (dual.expands m) (Proximal.nonnegative_lands_each raised m)
        (Coords.size_constant m 0) (Coords.forall_mem_constant m zero)
    obtain ⟨summary, returned, placed⟩ := steady.solve_ok inner config.innerBudget.toNat
    exact Work.ends_ok
      ⟨summary.state.point, nested_eq_ok.mpr ⟨inner, summary, returned, rfl⟩, placed.size, placed.holds⟩
  · refine Or.inr ⟨_, Work.outcome_bind_eq_error.mpr (Or.inl ?_), shrinks, rfl⟩
    exact Work.outcome_except_of_error (inner_refused shrinks)

variable (clipped : ∀ v : α, Each (if 0 ≤ v then v else 0))

include clipped

/-- There is a multiplier for each constraint, and what holds of zero, of clipped and of raised values holds of
each of them. -/
theorem multipliers_ends {gradient barrier : Coords α} {J : Table α} (left : gradient.size = J.width)
    (right : barrier.size = J.height) : (multipliers config gradient J barrier).Ends
      (fun l => l.size = J.height ∧ ∀ v ∈ l.toList, Each v) FactorRefused := by
  rcases Nat.lt_trichotomy J.height 1 with none | one | several
  · have high : J.height = 0 := by omega
    exact Work.ends_ok ⟨.zeros 0, multipliers_of_none high, high.symm, Coords.forall_mem_constant 0 zero⟩
  · have same : gradient.size = (J.row ⟨0, one ▸ one_pos⟩).size := left.trans (J.size_row _).symm
    have present : 0 < barrier.size := right.symm ▸ one ▸ one_pos
    obtain ⟨l, found, _⟩ := single_eq_ok same present
    exact Work.ends_ok ⟨_, multipliers_of_one one rfl found, one.symm, Coords.forall_mem_constant 1 (clipped l)⟩
  · have fits : Dual.Fits ⟨gradient, J, barrier⟩ J.height J.width := ⟨left, rfl, rfl, right⟩
    rw [multipliers_of_several several]
    exact nested_ends zero raised valid fits

/-- A step leaves a point of the dimension of the problem and such a multiplier for each constraint. -/
theorem step_ends {p : Constrained α} {n : Nat} {s : MultiplierState α} (objective : p.objective.Conforming n)
    (constraints : p.constraints.Conforming n) (fits : s.point.size = n) :
    (step config p s).Ends (fun s' => s'.point.size = n ∧ s'.multipliers.size = p.constraints.count ∧
      ∀ v ∈ s'.multipliers.toList, Each v) FactorRefused := by
  unfold step
  refine (Work.ends_checked (objective.gradient s.point fits)).bind fun gradient left => ?_
  refine (Work.ends_checked (constraints.jacobian s.point fits)).bind fun J ⟨high, wide⟩ => ?_
  refine (Work.ends_checked (constraints.values s.point fits)).bind fun values count => ?_
  have demanded : (demands config values J).size = J.height := size_demands (count.trans high.symm)
  have dual : Dual.Fits ⟨gradient, J, demands config values J⟩ J.height n := ⟨left, rfl, wide, demanded⟩
  refine (multipliers_ends zero raised valid clipped (left.trans wide.symm) demanded).bind fun l ⟨lSize, each⟩ => ?_
  refine (Work.ends_checked (dual.direction_ok lSize)).bind fun d dSize => ?_
  exact (Work.ends_checked (Coords.advance_ok fits dSize config.rate)).bind fun y size =>
    Work.ends_pure ⟨size, lSize.trans high, each⟩

end

section

variable (reflexive : (0 : α) ≤ 0) (shrinks : (0 : α) < 0.8 ∧ (0.8 : α) < 1)
  (raised : ∀ v : α, 0 ≤ Scalar.atLeast 0 v) (valid : schema.validate config = .ok ())

include reflexive

theorem clipped_nonneg (v : α) : 0 ≤ if 0 ≤ v then v else 0 := by
  split
  · assumption
  · exact reflexive

include shrinks raised valid

theorem multipliers_ok {gradient barrier : Coords α} {J : Table α} (left : gradient.size = J.width)
    (right : barrier.size = J.height) :
    ∃ l, (multipliers config gradient J barrier).outcome = .ok l ∧ Admissible J.height l := by
  obtain ⟨l, solved, size, nonneg⟩ :=
    (multipliers_ends reflexive raised valid (clipped_nonneg reflexive) left right).ok (not_factorRefused shrinks)
  exact ⟨l, solved, size, nonneg⟩

variable {p : Constrained α} {n : Nat} {s : MultiplierState α}

/-- The point has the dimension of the problem, and the multipliers are admissible. -/
structure Placed (p : Constrained α) (n : Nat) (s : MultiplierState α) : Prop where
  size : s.point.size = n
  admissible : Admissible p.constraints.count s.multipliers

variable (objective : p.objective.Conforming n) (constraints : p.constraints.Conforming n)

include objective constraints

theorem Placed.step_ok (placed : Placed p n s) :
    ∃ s', (step config p s).outcome = .ok s' ∧ Placed p n s' := by
  have ends := step_ends reflexive raised valid (clipped_nonneg reflexive) objective constraints placed.size
  obtain ⟨s', made, size, count, nonneg⟩ := ends.ok (not_factorRefused shrinks)
  exact ⟨s', made, size, count, nonneg⟩

theorem unfailing {x : Coords α} (size : x.size = n) : method.Unfailing config p x (Placed p n) where
  start := ⟨⟨x, .zeros p.constraints.count, false⟩, rfl, size, admissible_constant _ reflexive⟩
  step _ _ placed := placed.step_ok reflexive shrinks raised valid objective constraints
  tracked s placed quantity member := by
    obtain rfl := List.mem_singleton.mp member
    exact objective.value s.point placed.size

end

/-- Whatever the gradient, the Jacobian and what is demanded, and in an arithmetic of which next to nothing is
asked, there are multipliers, one for each constraint and none negative. So every number of steps leads to a
state, and every run comes back with one, unless its recorder fails. -/
theorem never_fails (reflexive : (0 : α) ≤ 0) (shrinks : (0 : α) < 0.8 ∧ (0.8 : α) < 1)
    (raised : ∀ v : α, 0 ≤ Scalar.atLeast 0 v) (config : Config α) (valid : schema.validate config = .ok ()) :
    (∀ (gradient barrier : Coords α) (J : Table α), gradient.size = J.width → barrier.size = J.height →
      ∃ l, (multipliers config gradient J barrier).outcome = .ok l ∧ l.size = J.height ∧ ∀ v ∈ l.toList, 0 ≤ v) ∧
    ∀ (p : Constrained α) (n : Nat) (x : Coords α), p.objective.Conforming n → p.constraints.Conforming n →
      x.size = n →
      (∀ k, ∃ s, method.after config p x () k = .ok (s, ()) ∧
        s.multipliers.size = p.constraints.count ∧ ∀ v ∈ s.multipliers.toList, 0 ≤ v) ∧
      ∀ (ρ : Type) (watch : Watch α ρ) (records : ρ) (budget : Nat),
        (∃ summary, (method.run config p watch () records x budget).1 = .ok summary ∧
          summary.state.multipliers.size = p.constraints.count ∧
          ∀ v ∈ summary.state.multipliers.toList, 0 ≤ v) ∨
        ∃ stop settings, (method.run config p watch () records x budget).1 = .error stop ∧
          schema.toSettings config = .ok settings ∧ watch.Refuses settings stop := by
  refine ⟨fun gradient barrier J left right => ?_, fun p n x objective constraints size => ⟨fun k => ?_,
    fun ρ watch records budget => ?_⟩⟩
  · obtain ⟨l, solved, admissible⟩ := multipliers_ok reflexive shrinks raised valid left right
    exact ⟨l, solved, admissible.size, admissible.nonneg⟩
  · obtain ⟨s, _, reached, placed⟩ :=
      (unfailing reflexive shrinks raised valid objective constraints size).reached () k
    exact ⟨s, reached, placed.admissible.size, placed.admissible.nonneg⟩
  · have steady := unfailing reflexive shrinks raised valid objective constraints size
    cases ended : (method.run config p watch () records x budget).1 with
    | ok summary =>
      have placed := steady.returned ended
      exact Or.inl ⟨summary, rfl, placed.admissible.size, placed.admissible.nonneg⟩
    | error stop =>
      obtain ⟨settings, written⟩ := toSettings_ok valid
      have refused := (steady.run_fails valid ended).refuses written
      exact Or.inr ⟨stop, settings, rfl, written, refused⟩

/-- Two half-lines, where the nested solve has a single iteration. -/
theorem never_fails_walled :
    (∃ l, (multipliers rough (.zeros 2) (.identity 2) (.constant 2 1)).outcome = .ok l ∧ l.size = 2 ∧
      ∀ v ∈ l.toList, 0 ≤ v) ∧
    (∃ s, method.after rough (walled 2) (.zeros 2) () 5 = .ok (s, ()) ∧ ∀ v ∈ s.multipliers.toList, 0 ≤ v) ∧
    ∃ summary, (method.run rough (walled 2) (Watch.none : Watch ℝ Unit) () () (.zeros 2) 5).1 = .ok summary := by
  have raised : ∀ v : ℝ, 0 ≤ Scalar.atLeast 0 v := fun v => Scalar.atLeast_exact 0 v ▸ le_max_left 0 v
  have high : (Table.identity 2 : Table ℝ).height = (Coords.constant 2 (-1) : Coords ℝ).size :=
    (Table.height_identity 2).trans (Coords.size_constant 2 _).symm
  have constraints : (walled 2).constraints.Conforming 2 :=
    Constraints.linear_conforming high (Table.width_identity 2)
  obtain ⟨each, runs⟩ := never_fails le_rfl (by norm_num) raised rough validate_rough
  obtain ⟨l, solved, size, nonneg⟩ := each (.zeros 2) (.constant 2 1) (.identity 2) rfl rfl
  obtain ⟨reached, returned⟩ := runs (walled 2) 2 (.zeros 2) (Objective.halfSquare_conforming 2) constraints rfl
  obtain ⟨s, made, _, kept⟩ := reached 5
  refine ⟨⟨l, solved, size, nonneg⟩, ⟨s, made, kept⟩, ?_⟩
  rcases returned Unit .none () 5 with ⟨summary, ended, _⟩ | ⟨_, _, _, _, _, _, _, _, _, present, _⟩
  · exact ⟨summary, ended⟩
  · cases present

end Downhill.DynamicBarrier
