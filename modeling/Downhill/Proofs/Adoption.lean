import Downhill.Proofs.GradientProjection.Certificate
import Downhill.Proofs.InteriorPoint.Merit
import Downhill.Proofs.Newton
import Downhill.Proofs.RandomSubspace
import Downhill.Proofs.WindowedNewton

namespace Downhill

/-- A step adopts what its search has tested: the point at which the objective was asked for last, with that
value; the point that was found feasible; or the point and the multipliers that an interior-point trial found
strictly feasible, with a residual small enough. -/
theorem tested_is_adopted {α : Type} [Scalar α] (comm : ∀ v w : α, v * w = w * v) :
    (∀ (config : Newton.Config α) f s s', (Newton.step config f s).outcome = .ok s' →
      ∃ value gradient hessian d slope found,
        Newton.Moves config f s value gradient hessian d slope found s' ∧
        config.search.TestedLast f s.point value d slope found s'.point) ∧
    (∀ (config : RandomSubspace.Gradient.Config α) f basis s s',
      (RandomSubspace.Gradient.step config f basis s).outcome = .ok s' →
      ∃ value gradient along slope found,
        RandomSubspace.Gradient.Moves config f basis s value gradient along slope found s' ∧
        config.search.TestedLast f s.point value along slope found s'.point) ∧
    (∀ (config : RandomSubspace.Newton.Config α) f basis s s',
      (RandomSubspace.Newton.step config f basis s).outcome = .ok s' →
      ∃ value gradient hessian d along slope found,
        RandomSubspace.Newton.Moves config f basis s value gradient hessian d along slope found s' ∧
        config.search.TestedLast f s.point value along slope found s'.point) ∧
    (∀ (config : WindowedNewton.Config α) f s s', (WindowedNewton.step config f s).outcome = .ok s' →
      ∃ value gradient window reduced full hessian d along slope found,
        WindowedNewton.Moves config f s value gradient window reduced full hessian d along slope found s' ∧
        config.search.TestedLast f s.point value along slope found s'.point) ∧
    (∀ (config : GradientProjection.Config α) p s s',
      (GradientProjection.step config p s).outcome = .ok s' →
      ∃ r : GradientProjection.Reading config p s, (r.Settled ∧ s'.point = s.point ∧ s'.finished = true) ∨
        ∃ rows d multipliers t last, GradientProjection.Moves config p s r rows d multipliers t s' ∧
          Backtracking.run (Feasible.attempt p.constraints s.point d) config.beta Feasible.maxShrinks
            config.alpha = .ok last ∧
          (last.accepted = true →
            Feasible.AcceptedLast p.constraints s.point d config.alpha config.beta t s'.point)) ∧
    (∀ (config : InteriorPoint.Config α) p s s', (InteriorPoint.step config p s).outcome = .ok s' →
      ∃ r : InteriorPoint.Reading p s,
        (r.Converged config ∧ s'.point = s.point ∧ s'.multipliers = s.multipliers ∧
          s'.finished = true) ∨
        ∃ centrality dx dl share last,
          let start := (r.dual.append centrality).norm
          InteriorPoint.Moves config p s r centrality dx dl share s' ∧
          Backtracking.run (InteriorPoint.attempt config p s dx dl start (r.target config)) config.beta
            InteriorPoint.maxShrinks (InteriorPoint.stepShare * InteriorPoint.maxDualStep s.multipliers dl) =
              .ok last ∧
          (last.accepted = true →
            InteriorPoint.AcceptedLast config p s dx dl start (r.target config) share s')) := by
  refine ⟨fun config f s s' made => ?_, fun config f basis s s' made => ?_,
    fun config f basis s s' made => ?_, fun config f s s' made => ?_, fun config p s s' made => ?_,
    fun config p s s' made => ?_⟩
  · obtain ⟨value, gradient, hessian, d, slope, found, moves⟩ := Newton.step_eq_ok.mp made
    refine ⟨value, gradient, hessian, d, slope, found, moves, ?_⟩
    -- The step multiplies the direction from the left, the search from the right.
    have moved : Armijo.candidate s.point d found.step = .ok s'.point :=
      (Coords.advance_eq_add_scale comm s.point d found.step).symm.trans moves.point_eq
    exact Armijo.testedLast_of_moved moves.search_eq moved
  · obtain ⟨value, gradient, along, slope, found, moves⟩ := RandomSubspace.Gradient.step_eq_ok.mp made
    exact ⟨value, gradient, along, slope, found, moves, moves.within.testedLast⟩
  · obtain ⟨value, gradient, hessian, d, along, slope, found, moves⟩ :=
      RandomSubspace.Newton.step_eq_ok.mp made
    exact ⟨value, gradient, hessian, d, along, slope, found, moves, moves.within.testedLast⟩
  · obtain ⟨value, gradient, window, reduced, full, hessian, d, along, slope, found, moves⟩ :=
      WindowedNewton.step_eq_ok.mp made
    exact ⟨value, gradient, window, reduced, full, hessian, d, along, slope, found, moves,
      moves.within.testedLast⟩
  · obtain ⟨r, ⟨settled, rfl⟩ | ⟨_, rows, d, multipliers, t, moves⟩⟩ := GradientProjection.step_cases made
    · exact ⟨r, Or.inl ⟨settled, rfl, rfl⟩⟩
    · obtain ⟨last, searched, accepts⟩ := Feasible.acceptedLast_of_run moves.share_eq moves.point_eq
      exact ⟨r, Or.inr ⟨rows, d, multipliers, t, last, moves, searched, accepts⟩⟩
  · obtain ⟨r, ⟨converged, rfl⟩ | ⟨_, centrality, dx, dl, share, moves⟩⟩ := InteriorPoint.step_cases made
    · exact ⟨r, Or.inl ⟨converged, rfl, rfl, rfl⟩⟩
    · obtain ⟨last, searched, accepts⟩ := moves.acceptedLast comm
      exact ⟨r, Or.inr ⟨centrality, dx, dl, share, last, moves, searched, accepts⟩⟩

theorem Newton.step_halfSquare (config : Config ℝ) :
    ∃ s', (step config (.halfSquare 1) ⟨.constant 1 1, false⟩).outcome = .ok s' := by
  have fits : (Coords.constant 1 (1 : ℝ)).size = 1 := Coords.size_constant _ _
  obtain ⟨gradient, atGradient, size⟩ := (Objective.halfSquare_conforming 1).gradient _ fits
  obtain ⟨E, made⟩ := Table.eliminate_of_one (Table.height_identity 1) (Table.width_identity 1)
    (Table.mat_identity 1)
  have right : gradient.neg.size = 1 := (Coords.size_map _ gradient).trans size
  obtain ⟨d, _, solved, _, dSize⟩ := solve_of_eliminate made ((Table.height_identity 1).trans right.symm)
    "Newton direction"
  exact step_ok (Objective.halfSquare_conforming 1) (Objective.quadratic_expands _ _ 1) fits atGradient rfl
    solved (dSize.trans (Table.height_identity 1))

/-- Half the way to the centre leads just to the end of the half-line. -/
theorem GradientProjection.accepted_capped {d : Coords ℝ} {last : Backtracking ℝ Unit} (size : d.size = 1)
    (two : d.vec 1 = fun _ => 2)
    (searched : Backtracking.run (Feasible.attempt capped.constraints (.zeros 1) d) modest.beta
      Feasible.maxShrinks modest.alpha = .ok last) : last.accepted = true := by
  obtain ⟨y, moved, fits⟩ := Coords.advance_ok (Coords.size_constant 1 0) size modest.alpha
  obtain ⟨values, atValues, _⟩ := capped_constraints.values y fits
  obtain ⟨valuesSize, below⟩ := capped_values fits atValues
  have feasible : capped.constraints.feasible y = .ok true := by
    refine Constraints.feasible_eq_ok.mpr
      ⟨values, atValues, (Coords.forall_mem_iff valuesSize).mpr fun i => ?_⟩
    rw [below, Coords.vec_advance moved, two]
    norm_num [modest]
  rcases (Backtracking.run_endsAt searched).first_accepted with ⟨accepted, _⟩ | ⟨_, refused⟩
  · exact accepted
  · exact absurd (Feasible.accepts_attempt_iff.mpr ⟨y, moved, feasible⟩) (refused 0 (Nat.zero_le _))

/-- Steps over the reals: two with a line search, one towards the end of a half-line, and one in a
box. -/
theorem tested_is_adopted_real :
    (∃ s' value d slope found,
      (Newton.step ⟨0.25, 0.5⟩ (.halfSquare 1) ⟨.constant 1 1, false⟩).outcome = .ok s' ∧
        Armijo.TestedLast ⟨0.25, 0.5, 1⟩ (.halfSquare 1) (.constant 1 1) value d slope found s'.point) ∧
    (∃ s' value along slope found,
      (RandomSubspace.Gradient.step ⟨1, 1, 1, .identity, 0.25, 0.5⟩ (.halfSquare 1) (.identity 1)
        ⟨.constant 1 1, false⟩).outcome = .ok s' ∧
        Armijo.TestedLast ⟨0.25, 0.5, 1⟩ (.halfSquare 1) (.constant 1 1) value along slope found s'.point) ∧
    (∃ s' d t,
      (GradientProjection.step GradientProjection.modest GradientProjection.capped
        ⟨.zeros 1, .zeros 0, 0, false⟩).outcome = .ok s' ∧
        Feasible.AcceptedLast GradientProjection.capped.constraints (.zeros 1) d
          GradientProjection.modest.alpha GradientProjection.modest.beta t s'.point) ∧
    (∃ dx dl start t,
      (InteriorPoint.step InteriorPoint.tight (InteriorPoint.boxed 1) ⟨.zeros 1, .constant 1 1, false⟩).outcome =
        .ok InteriorPoint.advanced ∧
        InteriorPoint.AcceptedLast InteriorPoint.tight (InteriorPoint.boxed 1)
        ⟨.zeros 1, .constant 1 1, false⟩ dx dl
          start t 0.99 InteriorPoint.advanced) := by
  have comm : ∀ v w : ℝ, v * w = w * v := mul_comm
  obtain ⟨newton, gradient, _, _, projection, interior⟩ := tested_is_adopted comm
  have fits : (Coords.constant 1 (1 : ℝ)).size = 1 := Coords.size_constant _ _
  refine ⟨?_, ?_, ?_, ?_⟩
  · obtain ⟨s', made⟩ := Newton.step_halfSquare ⟨0.25, 0.5⟩
    obtain ⟨value, _, _, d, slope, found, _, tested⟩ := newton _ _ _ s' made
    exact ⟨s', value, d, slope, found, made, tested⟩
  · obtain ⟨s', made⟩ : ∃ s', (RandomSubspace.Gradient.step ⟨1, 1, 1, .identity, 0.25, 0.5⟩ (.halfSquare 1)
        (.identity 1) ⟨.constant 1 1, false⟩).outcome = .ok s' :=
      RandomSubspace.Gradient.step_ok (Objective.halfSquare_conforming 1) (Objective.quadratic_expands _ _ 1)
        (Table.width_identity 1) fits
    obtain ⟨value, _, along, slope, found, _, tested⟩ := gradient _ _ _ _ s' made
    exact ⟨s', value, along, slope, found, made, tested⟩
  · obtain ⟨s', made⟩ := GradientProjection.step_capped
    obtain ⟨r', long, size, two⟩ := GradientProjection.reading_of_origin ⟨.zeros 1, .zeros 0, 0, false⟩ rfl
    obtain ⟨r, goes⟩ := projection _ _ _ s' made
    obtain rfl := r.eq r'
    rcases goes with ⟨settled, _⟩ | ⟨rows, d, multipliers, t, last, moves, searched, accepts⟩
    · exact absurd settled.1 long
    · rcases moves.keeps with ⟨_, rfl⟩ | ⟨short, _⟩
      · obtain ⟨rfl, rfl⟩ := Prod.mk.inj (Except.ok.inj (r.direction_eq.symm.trans moves.direction_eq))
        exact ⟨s', r.d, t, made, accepts (GradientProjection.accepted_capped size two searched)⟩
      · exact absurd short long
  · obtain ⟨r, ⟨_, _, _, finished⟩ | ⟨centrality, dx, dl, share, last, moves, searched, accepts⟩⟩ :=
      interior _ _ _ _ InteriorPoint.step_tight
    · cases finished
    · obtain rfl := InteriorPoint.tight_share moves
      exact ⟨dx, dl, _, _, InteriorPoint.step_tight, accepts (moves.accepted_of_ne (by norm_num) searched)⟩

end Downhill
