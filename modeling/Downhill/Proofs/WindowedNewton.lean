import Downhill.Method.WindowedNewton
import Downhill.Proofs.Search.Descent

namespace Downhill.WindowedNewton

variable {α : Type} [Scalar α] {config : Config α} {f : Objective α} {s s' : State α}

/-- A step within the span of the extended window. -/
structure Moves (config : Config α) (f : Objective α) (s : State α) (value : α) (gradient : Coords α)
    (window : Table α) (reduced : Coords α) (full hessian : Table α) (d along : Coords α) (slope : α)
    (found : Armijo.Outcome α) (s' : State α) : Prop where
  expand_eq : f.expand s.point = .ok (value, gradient)
  extend_eq : extend config s.window s.point gradient = .ok window
  reduced_eq : window.apply gradient = .ok reduced
  full_eq : (f.restrict ⟨s.point, window⟩).hessian (.zeros window.height) = .ok full
  regularize_eq : regularize config full = .ok hessian
  direction_eq : (direction reduced hessian).outcome = .ok d
  within : config.search.Within f ⟨s.point, window⟩ value reduced d along slope found s'.point
  window_eq : s'.window = some window
  finished_eq : s'.finished = s.finished

theorem step_eq_ok : (step config f s).outcome = .ok s' ↔
    ∃ value gradient window reduced full hessian d along slope found,
      Moves config f s value gradient window reduced full hessian d along slope found s' := by
  simp only [step, Work.outcome_bind_eq_ok, Work.outcome_checked_eq_ok, Work.outcome_except_eq_ok,
    Work.outcome_pure_eq_ok, Prod.exists, Armijo.runWithin_eq_ok]
  constructor
  · rintro ⟨value, gradient, atExpand, window, extended, reduced, atReduced, full, atFull, hessian, raised, d,
      atDirection, found, ⟨along, slope, atAlong, atSlope, searched⟩, _, same, point, moved, rfl⟩
    obtain rfl := Except.ok.inj (atAlong.symm.trans same)
    exact ⟨value, gradient, window, reduced, full, hessian, d, along, slope, found, atExpand, extended,
      atReduced, atFull, raised, atDirection, ⟨atAlong, atSlope, searched, moved⟩, rfl, rfl⟩
  · rintro ⟨value, gradient, window, reduced, full, hessian, d, along, slope, found, moves⟩
    have within := moves.within
    refine ⟨value, gradient, moves.expand_eq, window, moves.extend_eq, reduced, moves.reduced_eq, full,
      moves.full_eq, hessian, moves.regularize_eq, d, moves.direction_eq, found,
      ⟨along, slope, within.embed_eq, within.slope_eq, within.search_eq⟩, along, within.embed_eq, s'.point,
      within.point_eq, ?_⟩
    rw [← moves.window_eq, ← moves.finished_eq]

end Downhill.WindowedNewton
