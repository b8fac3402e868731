import Downhill.Problem
import Downhill.Search.Backtracking
import Downhill.Work

namespace Downhill

/-- A proximal point and the scale it was taken with. -/
structure ProximalStep (α : Type) where
  point : Coords α
  scale : α

namespace Majorant

/-- The number of shrinks that are made at most. -/
def maxShrinks : Nat :=
  10000

variable {α : Type} [Scalar α]

/-- The proximal point behind a gradient step of the given scale. -/
def candidate (prox : Proximal α) (v gradient : Coords α) (t : α) : Checked (Coords α) := do
  prox (← v.advance (-t) gradient) t

/-- The quadratic model at the displacement, times the scale. -/
def model (loss : α) (gradient change : Coords α) (t : α) : Checked α := do
  return t * loss + t * (← gradient.dot change) + 0.5 * (← change.dot change)

/-- The proximal point at a scale, and whether the model lies above the objective there. The two are compared
after multiplication by the scale. -/
def attempt (p : Composite α) (v : Coords α) (loss : α) (gradient : Coords α) (t : α) :
    Checked (Coords α × Bool) := do
  let point ← candidate p.prox v gradient t
  let bound ← model loss gradient (← point.sub v) t
  let value ← p.smooth.value point
  return (point, decide (t * value ≤ bound))

/-- The search at a point with the given value and gradient. -/
def run (p : Composite α) (tag : String) (v : Coords α) (loss : α) (gradient : Coords α)
    (initial factor : α) : Work α (ProximalStep α) := do
  let last ← Backtracking.run (attempt p v loss gradient) factor maxShrinks initial
  unless last.accepted do Work.note (.proximalExhausted tag last.shrinks last.step)
  return ⟨last.trial, last.step⟩

end Majorant

end Downhill
