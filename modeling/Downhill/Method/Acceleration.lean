import Downhill.Method.GradientDescent

namespace Downhill.Acceleration

/-- The configuration is that of the plain method. -/
abbrev Config (α : Type) :=
  GradientDescent.Config α

/-- The point, the gradient step that led to it, and the weight. -/
structure State (α : Type) where
  point : Coords α
  leading : Coords α
  weight : α
  finished : Bool

variable {α : Type} [Scalar α]

def schema : Schema α (Config α) :=
  { GradientDescent.schema with algorithm := "AcceleratedGradientDescent" }

/-- The weights follow `λ' = (1 + √(1 + 4 λ²)) / 2` from `λ = 0`. -/
def nextWeight (weight : α) : α :=
  (1 + Scalar.sqrt (1 + 4.0 * weight * weight)) / 2.0

/-- The share of the older gradient step in the next point: `γ = (1 - λ) / λ'`. -/
def mix (weight : α) : α :=
  (1 - weight) / nextWeight weight

def State.initial (x : Coords α) : State α where
  point := x
  leading := x
  weight := 0
  finished := false

/-- The state after the given gradient at its point. The next point is taken on the line through the last two
gradient steps, past the newer one. -/
def update (config : Config α) (s : State α) (gradient : Coords α) : Checked (State α) := do
  let leading ← s.point.advance (-config.rate) gradient
  let share := mix s.weight
  let point ← (leading.scale (1 - share)).add (s.leading.scale share)
  return { s with point, leading, weight := nextWeight s.weight }

def method : Method α (Objective α) (Config α) (State α) Unit Unit where
  tag := "AGD"
  schema := schema
  objective := id
  start _ _ x := return .initial x
  draw := noDraw
  step config f _ s := (do update config s (← f.gradient s.point) : Checked (State α))
  point := State.point
  finished := State.finished
  measures := [gradientMeasure State.point]
  distinct := distinct_gradientMeasure State.point

end Downhill.Acceleration
