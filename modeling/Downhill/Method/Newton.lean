import Downhill.LinearSystem
import Downhill.Method
import Downhill.Search.Armijo

namespace Downhill.Newton

/-- The configuration. -/
structure Config (α : Type) where
  /-- The required fraction of the promised decrease. -/
  alpha : α
  /-- The factor of a shrink. -/
  beta : α
  deriving Repr

variable {α : Type} [Scalar α]

def schema : Schema α (Config α) where
  algorithm := "Newton"
  fields := [⟨"alpha", .real⟩, ⟨"beta", .real⟩]
  toRow c := (c.alpha, c.beta, ())
  ofRow r := ⟨r.1, r.2.1⟩
  validate c := do
    requireFraction "alpha" c.alpha
    requireFraction "beta" c.beta

def Config.search (config : Config α) : Armijo α :=
  ⟨config.alpha, config.beta, 1⟩

def direction (gradient : Coords α) (hessian : Table α) : Except (Failure α) (Coords α) :=
  solve hessian gradient.neg "Newton direction"

/-- The direction solves `∇²f(x) d = -∇f(x)`; the search along it starts from the full step. -/
def step (config : Config α) (f : Objective α) (s : PointState α) : Work α (PointState α) := do
  let (value, gradient) ← f.expand s.point
  let hessian ← f.hessian s.point
  let d ← direction gradient hessian
  let slope ← gradient.dot d
  let found ← config.search.run f s.point value d slope
  Work.note (.newtonStep found.step found.value)
  return { s with point := ← s.point.advance found.step d }

def method : Method α (Objective α) (Config α) (PointState α) Unit Unit where
  tag := "Newton"
  schema := schema
  objective := id
  start _ _ x := return .initial x
  draw := noDraw
  step config f _ s := step config f s
  point := PointState.point
  finished := PointState.finished
  measures := [gradientMeasure PointState.point]
  distinct := PointState.distinct_gradientMeasure

end Downhill.Newton
