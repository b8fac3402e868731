import Downhill.Problem
import Downhill.Search.Backtracking
import Downhill.Work

namespace Downhill.Feasible

/-- The number of shrinks that are made at most. -/
def maxShrinks : Nat :=
  100

variable {α : Type} [Scalar α]

/-- Whether the point at a step is feasible. -/
def attempt (c : Constraints α) (x d : Coords α) (t : α) : Checked (Unit × Bool) := do
  return ((), ← c.feasible (← x.advance t d))

/-- The first feasible step, or zero with a warning. -/
def run (c : Constraints α) (tag : String) (x d : Coords α) (initial factor : α) : Work α α := do
  let last ← Backtracking.run (attempt c x d) factor maxShrinks initial
  if last.accepted then return last.step
  Work.note (.noFeasibleStep tag maxShrinks)
  return 0

end Downhill.Feasible
