import Downhill.Method
import Downhill.Search.Majorant

namespace Downhill.ProximalMomentum

/-- The configuration. -/
structure Config (α : Type) where
  /-- Whether the counter is set back when the objective goes up. -/
  restart : Bool
  beta : α
  eps : α
  deriving Repr

/-- The last two points, the scale and the counter. -/
structure State (α : Type) where
  point : Coords α
  previous : Coords α
  scale : α
  counter : Nat
  finished : Bool

variable {α : Type} [Scalar α]

def schema : Schema α (Config α) where
  algorithm := "BacktrackingAcceleratedProximalGD"
  fields := [⟨"restart", .switch⟩, ⟨"beta", .real⟩, ⟨"eps", .real⟩]
  toRow c := (c.restart, c.beta, c.eps, ())
  ofRow r := ⟨r.1, r.2.1, r.2.2.1⟩
  validate c := do
    requireFraction "beta" c.beta
    requirePositive "eps" c.eps

def tag : String :=
  "APGD"

def State.initial (x : Coords α) : State α where
  point := x
  previous := x
  scale := 1
  counter := 0
  finished := false

/-- The share of the last displacement that is added once more. -/
def momentum (counter : Nat) : α :=
  ((counter : α) - 2.0) / ((counter : α) + 1)

/-- The point past the last two, by a share that grows with the counter. -/
def extrapolate (s : State α) : Checked (Coords α) := do
  let displacement ← s.point.sub s.previous
  s.point.add (displacement.scale (momentum s.counter))

/-- Whether the objective is greater at the first point than at the second. -/
def wentUp (f : Objective α) (now before : Coords α) : Checked Bool := do
  let high ← f.value now
  let low ← f.value before
  return decide (low < high)

/-- Every step searches from the extrapolated point and carries the scale on, so that it only shrinks. When the
objective goes up the counter may be set back, and the weights start over. -/
def step (config : Config α) (p : Composite α) (s : State α) : Work α (State α) := do
  let s := { s with counter := s.counter + 1 }
  let v ← extrapolate s
  let (loss, gradient) ← p.smooth.expand v
  let found ← Majorant.run p tag v loss gradient s.scale config.beta
  let change ← found.point.sub v
  let s : State α :=
    { point := found.point
      previous := s.point
      scale := found.scale
      counter := s.counter
      finished := decide (change.norm ≤ found.scale * config.eps) }
  if config.restart then
    if ← wentUp p.smooth s.point s.previous then
      Work.note (.restart s.counter)
      return { s with counter := 0 }
  return s

def method : Method α (Composite α) (Config α) (State α) Unit Unit where
  tag := tag
  schema := schema
  objective := Composite.smooth
  start _ _ x := return .initial x
  draw := noDraw
  step config p _ s := step config p s
  point := State.point
  finished := State.finished
  measures := []
  distinct := History.distinct_nil

end Downhill.ProximalMomentum
