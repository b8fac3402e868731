import Downhill.Shape

namespace Downhill

/-- Where a search ended: the last step tried, what the trial gave, how many shrinks led there, and
whether the trial was accepted. -/
structure Backtracking (α β : Type) where
  step : α
  trial : β
  shrinks : Nat
  accepted : Bool

namespace Backtracking

variable {α β : Type} [Mul α]

/-- The search after some shrinks, with the number of those still allowed. -/
def resume (attempt : α → Checked (β × Bool)) (factor : α) :
    (allowed : Nat) → (t : α) → (shrinks : Nat) → Checked (Backtracking α β)
  | 0, t, shrinks => do
    let (trial, accepted) ← attempt t
    return ⟨t, trial, shrinks, accepted⟩
  | allowed + 1, t, shrinks => do
    let (trial, accepted) ← attempt t
    if accepted then return ⟨t, trial, shrinks, true⟩
    else resume attempt factor allowed (t * factor) (shrinks + 1)

/-- The search from the initial step. -/
def run (attempt : α → Checked (β × Bool)) (factor : α) (allowed : Nat) (initial : α) :
    Checked (Backtracking α β) :=
  resume attempt factor allowed initial 0

end Backtracking

end Downhill
