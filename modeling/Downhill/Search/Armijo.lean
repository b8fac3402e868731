import Downhill.Search.Backtracking
import Downhill.Subspace
import Downhill.Work

namespace Downhill

/-- The required fraction, the factor of a shrink and the first step. -/
structure Armijo (α : Type) where
  fraction : α
  factor : α
  initial : α

namespace Armijo

/-- The number of shrinks that are made at most. -/
def maxShrinks : Nat :=
  100

/-- How a line search ended. -/
structure Outcome (α : Type) where
  step : α
  value : α
  evaluations : Nat
  exhausted : Bool

variable {α : Type} [Scalar α]

/-- The point tried at a step. -/
def candidate (x d : Coords α) (t : α) : Checked (Coords α) :=
  x.add (d.scale t)

/-- Whether a value at the step is low enough. -/
def Sufficient (search : Armijo α) (start slope t value : α) : Prop :=
  value ≤ start + search.fraction * t * slope

instance (search : Armijo α) (start slope t value : α) :
    Decidable (search.Sufficient start slope t value) :=
  inferInstanceAs (Decidable (_ ≤ _))

/-- The value at a step, and whether it is low enough. -/
def attempt (search : Armijo α) (f : Objective α) (x d : Coords α) (start slope t : α) :
    Checked (α × Bool) := do
  let value ← f.value (← candidate x d t)
  return (value, decide (search.Sufficient start slope t value))

/-- The search along a direction, with the value at the start and the slope there. Where it runs out of shrinks
the last step is kept and a warning noted. -/
def run (search : Armijo α) (f : Objective α) (x : Coords α) (start : α) (d : Coords α)
    (slope : α) : Work α (Outcome α) := do
  if 0 < slope then Work.note (.ascent slope)
  let last ← Backtracking.run (search.attempt f x d start slope) search.factor maxShrinks
    search.initial
  if last.accepted then Work.note (.searchAccepted last.step (last.shrinks + 1))
  else Work.note (.searchExhausted last.shrinks last.step)
  return ⟨last.step, last.trial, last.shrinks + 1, !last.accepted⟩

/-- The search along a direction of a subspace, whose slope is read off the gradient there. -/
def runWithin (search : Armijo α) (f : Objective α) (s : Subspace α) (start : α)
    (gradient d : Coords α) : Work α (Outcome α) := do
  let along ← s.embed d
  let slope ← gradient.dot d
  search.run f s.origin start along slope

end Armijo

end Downhill
