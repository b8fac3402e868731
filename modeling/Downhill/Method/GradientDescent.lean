import Downhill.Method

namespace Downhill.GradientDescent

/-- The configuration. -/
structure Config (α : Type) where
  rate : α
  deriving Repr

variable {α : Type} [Scalar α]

def schema : Schema α (Config α) where
  algorithm := "GradientDescent"
  fields := [⟨"lr", .real⟩]
  toRow c := (c.rate, ())
  ofRow r := ⟨r.1⟩
  validate c := requirePositive "lr" c.rate

def direction (gradient : Coords α) : Coords α :=
  gradient.neg

/-- The point after one step. -/
def move (config : Config α) (x gradient : Coords α) : Checked (Coords α) :=
  x.advance config.rate (direction gradient)

/-- The step `x ← x - rate ∇f(x)`. -/
def step (config : Config α) (f : Objective α) (s : PointState α) : Checked (PointState α) := do
  return { s with point := ← move config s.point (← f.gradient s.point) }

def method : Method α (Objective α) (Config α) (PointState α) Unit Unit where
  tag := "GD"
  schema := schema
  objective := id
  start _ _ x := return .initial x
  draw := noDraw
  step config f _ s := step config f s
  point := PointState.point
  finished := PointState.finished
  measures := [gradientMeasure PointState.point]
  distinct := PointState.distinct_gradientMeasure

end Downhill.GradientDescent
