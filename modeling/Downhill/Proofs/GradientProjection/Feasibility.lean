import Downhill.Proofs.GradientProjection.ActiveSet
import Downhill.Proofs.GradientProjection.Step
import Downhill.Proofs.Run.Loop
import Downhill.Proofs.Search.Feasibility

namespace Downhill.GradientProjection

variable {config : Config ℝ} {p : Constrained ℝ} {s s' : State ℝ}

/-- A move goes to the first of the trials that is feasible, and nowhere if none is. -/
theorem Moves.point_cases {r : Reading config p s} {rows : Table ℝ} {d multipliers : Coords ℝ} {t : ℝ}
    (moves : Moves config p s r rows d multipliers t s') :
    let trial := fun j : Nat => config.alpha * config.beta ^ j
    let reaches := Feasible.Reaches p.constraints s.point d
    (∃ j ≤ 100, reaches (trial j) ∧ (∀ i < j, ¬ reaches (trial i)) ∧
        s.point.advance (trial j) d = .ok s'.point ∧ p.constraints.feasible s'.point = .ok true) ∨
      ((∀ j ≤ 100, ¬ reaches (trial j)) ∧ s'.point = s.point) := by
  intro trial reaches
  rcases Feasible.run_cases moves.share_eq with ⟨j, within, rfl, reached, early⟩ | ⟨never, rfl⟩
  · obtain ⟨y, moved, feasible⟩ := reached
    have same : y = s'.point := Except.ok.inj (moved.symm.trans moves.point_eq)
    exact Or.inl ⟨j, within, ⟨y, moved, feasible⟩, early, moves.point_eq, same ▸ feasible⟩
  · exact Or.inr ⟨never, Coords.advance_zero moves.point_eq⟩

theorem feasible_step (feasible : p.constraints.feasible s.point = .ok true)
    (made : (step config p s).outcome = .ok s') : p.constraints.feasible s'.point = .ok true := by
  obtain ⟨r, ⟨_, rfl⟩ | ⟨_, rows, d, multipliers, t, moves⟩⟩ := step_cases made
  · exact feasible
  · rcases moves.point_cases with ⟨_, _, _, _, _, reached⟩ | ⟨_, stays⟩
    · exact reached
    · exact stays ▸ feasible

theorem start_eq_ok {x : Coords ℝ} :
    (method.start config p x).outcome = .ok s ↔ s = ⟨x, .zeros 0, 0, false⟩ :=
  ⟨fun made => (Except.ok.inj made).symm, fun same => congrArg Except.ok same.symm⟩

/-- A step finishes where it is, or moves along the direction of the active rows, one of which may have been
released, to the first of the trials that is feasible, or stays because none of them is. So a feasible point
is followed by feasible points only. -/
theorem feasibility_kept (config : Config ℝ) (p : Constrained ℝ) (x : Coords ℝ) :
    (∀ k s s', method.after config p x () k = .ok (s, ()) → (step config p s).outcome = .ok s' →
      ∃ r : Reading config p s,
        (r.Settled ∧ s'.finished = true ∧ s'.point = s.point) ∨
        (¬ r.Settled ∧ s'.finished = s.finished ∧ ∃ rows d multipliers, r.Keeps rows ∧
          (direction r.gradient rows).outcome = .ok (d, multipliers) ∧
          let trial := fun j : Nat => config.alpha * config.beta ^ j
          let reaches := Feasible.Reaches p.constraints s.point d
          (∃ j ≤ 100, reaches (trial j) ∧ (∀ i < j, ¬ reaches (trial i)) ∧
              s.point.advance (trial j) d = .ok s'.point ∧ p.constraints.feasible s'.point = .ok true) ∨
            ((∀ j ≤ 100, ¬ reaches (trial j)) ∧ s'.point = s.point))) ∧
    (∀ i k s s', i ≤ k → method.after config p x () i = .ok (s, ()) →
      method.after config p x () k = .ok (s', ()) → p.constraints.feasible s.point = .ok true →
        p.constraints.feasible s'.point = .ok true) ∧
    (p.constraints.feasible x = .ok true →
      (∀ k s, method.after config p x () k = .ok (s, ()) → p.constraints.feasible s.point = .ok true) ∧
      ∀ (ρ : Type) (watch : Watch ℝ ρ) (records : ρ) (budget : Nat)
        (summary : Summary ℝ (State ℝ) (budget + 1)),
        (method.run config p watch () records x budget).1 = .ok summary →
          p.constraints.feasible summary.state.point = .ok true) := by
  have keeps : ∀ (drawn : Unit) (s s' : State ℝ), p.constraints.feasible s.point = .ok true →
      (method.step config p drawn s).outcome = .ok s' → p.constraints.feasible s'.point = .ok true :=
    fun _ _ _ holds made => feasible_step holds made
  have initial : p.constraints.feasible x = .ok true → ∀ s, (method.start config p x).outcome = .ok s →
      p.constraints.feasible s.point = .ok true := by
    intro feasible s started
    obtain rfl := start_eq_ok.mp started
    exact feasible
  refine ⟨fun k s s' _ made => ?_, fun i k s s' later reached ended feasible => ?_, fun feasible => ⟨?_, ?_⟩⟩
  · obtain ⟨r, ⟨settled, rfl⟩ | ⟨unsettled, rows, d, multipliers, t, moves⟩⟩ := step_cases made
    · exact ⟨r, Or.inl ⟨settled, rfl, rfl⟩⟩
    · exact ⟨r, Or.inr ⟨unsettled, moves.finished_eq, rows, d, multipliers, moves.keeps,
        moves.direction_eq, moves.point_cases⟩⟩
  · exact Method.after_keeps (m := method) keeps later reached feasible ended
  · exact fun k s reached => Method.after_invariant (m := method) (initial feasible) keeps reached
  · exact fun ρ watch records budget summary returned =>
      (Method.run_keeps _ (initial feasible) (fun drawn s s' _ => keeps drawn s s') returned).1

/-- Half the squared distance from two where no coordinate exceeds one, in one dimension. -/
noncomputable def capped : Constrained ℝ :=
  ⟨.quadratic (.identity 1) (.constant 1 2.0), .linear (.identity 1) (.constant 1 1)⟩

noncomputable def modest : Config ℝ :=
  ⟨0.1, 0.1, 0.5, 0.5⟩

theorem capped_objective : capped.objective.Conforming 1 :=
  Objective.quadratic_conforming (Table.height_identity 1) (Table.width_identity 1) (Coords.size_constant _ _)

theorem capped_constraints : capped.constraints.Conforming 1 :=
  Constraints.linear_conforming ((Table.height_identity 1).trans (Coords.size_constant 1 _).symm)
    (Table.width_identity 1)

theorem capped_values {x values : Coords ℝ} (fits : x.size = 1)
    (made : capped.constraints.values x = .ok values) :
    values.size = 1 ∧ values.vec 1 = fun i => x.vec 1 i - 1 := by
  have size := capped_constraints.size_values fits made
  refine ⟨size.trans (Coords.size_constant 1 _), ?_⟩
  rw [Constraints.linear_values (Table.height_identity 1) (Table.width_identity 1) made]
  funext i
  simp

theorem capped_gradients {x g : Coords ℝ} (made : capped.objective.gradient x = .ok g) :
    g.vec 1 = fun i => x.vec 1 i - 2 := by
  rw [Objective.quadratic_gradients (Table.height_identity 1) (Table.width_identity 1) made]
  funext i
  norm_num

theorem reading_of_origin (s : State ℝ) (origin : s.point = .zeros 1) :
    ∃ r : Reading modest capped s, ¬ r.d.norm < modest.delta ∧ r.d.size = 1 ∧ r.d.vec 1 = fun _ => 2 := by
  have fits : s.point.size = 1 := origin ▸ Coords.size_constant _ _
  obtain ⟨values, atValues, _⟩ := capped_constraints.values _ fits
  obtain ⟨gradient, atGradient, size⟩ := capped_objective.gradient _ fits
  obtain ⟨valuesSize, below⟩ := capped_values fits atValues
  obtain ⟨active, atActive⟩ := activeRows_ok modest (valuesSize.trans (Table.height_identity 1).symm)
  have free : active.height = 0 := by
    obtain ⟨_, place, _, members, _⟩ := activeRows_eq_ok valuesSize (Table.height_identity 1)
      (Table.width_identity 1) atActive
    by_contra nonzero
    have near := (members _).mp ⟨⟨0, Nat.pos_of_ne_zero nonzero⟩, rfl⟩
    rw [below, origin] at near
    norm_num [modest] at near
  refine ⟨⟨values, .identity 1, active, gradient, gradient.neg, .zeros 0, atValues, rfl, atActive,
    atGradient, direction_of_free gradient free⟩, ?_, (Coords.size_map _ _).trans size, ?_⟩
  · change ¬ gradient.neg.norm < modest.delta
    rw [Coords.norm_neg, Coords.norm_eq size.le, capped_gradients atGradient, origin, not_lt]
    refine Real.le_sqrt_of_sq_le ?_
    norm_num [dotProduct, modest]
  · rw [Coords.vec_neg, capped_gradients atGradient, origin]
    funext i
    norm_num

theorem step_capped : ∃ s', (step modest capped ⟨.zeros 1, .zeros 0, 0, false⟩).outcome = .ok s' := by
  obtain ⟨r, long, size, _⟩ := reading_of_origin ⟨.zeros 1, .zeros 0, 0, false⟩ rfl
  have fits : (Coords.zeros 1 : Coords ℝ).size = 1 := Coords.size_constant _ _
  obtain ⟨t, atShare⟩ := Feasible.run_ok capped_constraints fits size tag modest.alpha modest.beta
  obtain ⟨point, atPoint, _⟩ := Coords.advance_ok fits size t
  exact ⟨⟨point, r.multipliers, r.active.height, false⟩,
    step_of_long long (moved_eq_ok.mpr ⟨t, atShare, atPoint, rfl, rfl, rfl⟩)⟩

theorem after_capped : ∃ s, method.after modest capped (.zeros 1) () 1 = .ok (s, ()) := by
  obtain ⟨s', made⟩ := step_capped
  have started : method.after modest capped (.zeros 1) () 0 = .ok (⟨.zeros 1, .zeros 0, 0, false⟩, ()) :=
    Method.after_zero_eq_ok.mpr ⟨start_eq_ok.mpr rfl, rfl⟩
  exact ⟨s', Method.after_succ_eq_ok.mpr ⟨_, (), started, made, rfl⟩⟩

/-- A step from the origin of a half-line. -/
theorem feasibility_kept_capped : ∃ s, method.after modest capped (.zeros 1) () 1 = .ok (s, ()) ∧
    capped.constraints.feasible s.point = .ok true := by
  have fits : (Coords.zeros 1 : Coords ℝ).size = 1 := Coords.size_constant _ _
  obtain ⟨values, atValues, _⟩ := capped_constraints.values _ fits
  obtain ⟨size, below⟩ := capped_values fits atValues
  have inside : capped.constraints.feasible (.zeros 1) = .ok true := by
    refine Constraints.feasible_eq_ok.mpr ⟨values, atValues, (Coords.forall_mem_iff size).mpr fun i => ?_⟩
    rw [below]
    norm_num
  obtain ⟨s, reached⟩ := after_capped
  exact ⟨s, reached, ((feasibility_kept modest capped (.zeros 1)).2.2 inside).1 1 s reached⟩

end Downhill.GradientProjection
