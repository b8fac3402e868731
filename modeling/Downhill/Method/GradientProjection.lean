import Downhill.LinearSystem
import Downhill.Method
import Downhill.Search.Feasible

namespace Downhill.GradientProjection

/-- The configuration. -/
structure Config (α : Type) where
  /-- Constraints with a value above minus this are active. -/
  eps : α
  /-- Directions shorter than this count as none. -/
  delta : α
  /-- The first step. -/
  alpha : α
  beta : α
  deriving Repr

/-- The point, and the multipliers of the constraints that were active in the last direction. -/
structure State (α : Type) where
  point : Coords α
  multipliers : Coords α
  active : Nat
  finished : Bool

variable {α : Type} [Scalar α]

def schema : Schema α (Config α) where
  algorithm := "GradientProjection"
  fields := [⟨"eps", .real⟩, ⟨"delta", .real⟩, ⟨"alpha", .real⟩, ⟨"beta", .real⟩]
  toRow c := (c.eps, c.delta, c.alpha, c.beta, ())
  ofRow r := ⟨r.1, r.2.1, r.2.2.1, r.2.2.2.1⟩
  validate c := do
    requirePositive "eps" c.eps
    requirePositive "delta" c.delta
    requirePositive "alpha" c.alpha
    requireFraction "beta" c.beta

def tag : String :=
  "GPM"

/-- The positions of the constraints that are active at the given values. -/
def activePositions (config : Config α) (values : Coords α) : List Nat :=
  (values.toList.zipIdx.filter fun v => decide (-config.eps < v.1)).map Prod.snd

/-- The rows of the active constraints. -/
def activeRows (config : Config α) (values : Coords α) (jacobian : Table α) : Checked (Table α) :=
  jacobian.selectAt (activePositions config values)

/-- The projected direction and the multipliers of the active rows. -/
def direction (gradient : Coords α) (active : Table α) : Work α (Coords α × Coords α) := do
  if active.height = 0 then return (gradient.neg, .zeros 0)
  let gram ← active.mul active.transpose
  let slopes ← active.apply gradient
  let multipliers ← solve gram slopes.neg "gradient projection multipliers"
  let push ← active.combineRows multipliers
  return (← gradient.neg.sub push, multipliers)

/-- The position and the value of the lowest entry, of several the first. -/
def lowest (x : Coords α) : Option (Nat × α) :=
  x.toList.zipIdx.foldl
    (fun best v =>
      match best with
      | none => some (v.2, v.1)
      | some b => if v.1 < b.2 then some (v.2, v.1) else some b)
    none

/-- The table without the row at a position. -/
def withoutRow (A : Table α) (position : Nat) : Table α :=
  A.select ((List.finRange A.height).filter (·.val ≠ position))

def stepSize (config : Config α) (c : Constraints α) (x d : Coords α) : Work α α :=
  Feasible.run c tag x d config.alpha config.beta

/-- The point moved along a direction that belongs to some active rows. -/
def moved (config : Config α) (c : Constraints α) (s : State α) (active : Nat)
    (d multipliers : Coords α) : Work α (State α) := do
  let t ← stepSize config c s.point d
  return { s with point := ← s.point.advance t d, multipliers, active }

/-- Where almost nothing is left of the projected direction, the method is finished if no multiplier is
negative; otherwise the constraint with the lowest multiplier leaves the active set. The step is the first
that keeps the point feasible. -/
def step (config : Config α) (p : Constrained α) (s : State α) : Work α (State α) := do
  let values ← p.constraints.values s.point
  let active ← activeRows config values (← p.constraints.jacobian s.point)
  let gradient ← p.objective.gradient s.point
  let (d, multipliers) ← direction gradient active
  if d.norm < config.delta then
    if multipliers.toList.all fun l => decide (0 ≤ l) then
      return { s with multipliers, active := active.height, finished := true }
    match lowest multipliers with
    | none => moved config p.constraints s active.height d multipliers
    | some (position, l) =>
      Work.note (.dropped position l)
      let kept := withoutRow active position
      let (d, multipliers) ← direction gradient kept
      moved config p.constraints s kept.height d multipliers
  else moved config p.constraints s active.height d multipliers

/-- The number of constraints active in the last direction. -/
def activeMeasure : Measure α (Constrained α) (State α) where
  name := "active_constraints"
  value _ s := .ok (s.active : α)

def method : Method α (Constrained α) (Config α) (State α) Unit Unit where
  tag := tag
  schema := schema
  objective := Constrained.objective
  start _ _ x := return ⟨x, .zeros 0, 0, false⟩
  draw := noDraw
  step config p _ s := step config p s
  point := State.point
  finished := State.finished
  measures := [activeMeasure]
  distinct := by
    change [History.objectiveName, History.timeName, "active_constraints"].Nodup
    decide

end Downhill.GradientProjection
