import Downhill.Method
import Downhill.Search.Majorant

namespace Downhill.ProximalGradient

/-- The configuration. -/
structure Config (α : Type) where
  /-- Finished is a step no longer than this times its scale. -/
  eps : α
  beta : α
  deriving Repr

variable {α : Type} [Scalar α]

def schema : Schema α (Config α) where
  algorithm := "BacktrackingProximalGD"
  fields := [⟨"eps", .real⟩, ⟨"beta", .real⟩]
  toRow c := (c.eps, c.beta, ())
  ofRow r := ⟨r.1, r.2.1⟩
  validate c := do
    requirePositive "eps" c.eps
    requireFraction "beta" c.beta

def tag : String :=
  "PGD"

/-- The search at a point with the given value and gradient. -/
def search (config : Config α) (p : Composite α) (x : Coords α) (loss : α) (gradient : Coords α) :
    Work α (ProximalStep α) :=
  Majorant.run p tag x loss gradient 1 config.beta

/-- Every step searches for the scale anew, from one; the method is finished once a step is short compared with
its scale. -/
def step (config : Config α) (p : Composite α) (s : PointState α) : Work α (PointState α) := do
  let (loss, gradient) ← p.smooth.expand s.point
  let found ← search config p s.point loss gradient
  let change ← s.point.sub found.point
  return ⟨found.point, decide (change.norm ≤ found.scale * config.eps)⟩

def method : Method α (Composite α) (Config α) (PointState α) Unit Unit where
  tag := tag
  schema := schema
  objective := Composite.smooth
  start _ _ x := return .initial x
  draw := noDraw
  step config p _ s := step config p s
  point := PointState.point
  finished := PointState.finished
  measures := []
  distinct := History.distinct_nil

end Downhill.ProximalGradient
