import Downhill.Failure
import Downhill.Shape

namespace Downhill

/-- What is worth noting while a method runs. -/
inductive Event (α : Type)
  /-- A line search along a direction in which the objective grows. -/
  | ascent (slope : α)
  | searchExhausted (shrinks : Nat) (step : α)
  | searchAccepted (step : α) (evaluations : Nat)
  /-- The system was not positive definite, so the general solver is used. -/
  | fallback (system : String)
  | newtonStep (step value : α)
  | subspaceStep (step : α)
  | proximalExhausted (tag : String) (shrinks : Nat) (step : α)
  /-- The momentum counter was set back because the objective went up. -/
  | restart (counter : Nat)
  /-- A constraint left the active set. -/
  | dropped (index : Nat) (multiplier : α)
  | noFeasibleStep (tag : String) (shrinks : Nat)
  | innerSolve (iterations : Nat) (finished : Bool)
  | interiorStep (gap step : α)
  | interiorExhausted (shrinks : Nat)
  | stopped (tag : String) (iterations : Nat)
  | progress (tag : String) (iteration : Nat) (value : α)
  /-- A record of so many series was stored. -/
  | stored (series : Nat)
  deriving DecidableEq, Repr

/-- How much an event matters. -/
inductive Severity
  | warn
  | info
  | debug
  deriving DecidableEq, Repr

def Event.severity {α : Type} : Event α → Severity
  | ascent _ | searchExhausted _ _ | proximalExhausted _ _ _ | noFeasibleStep _ _
  | interiorExhausted _ => .warn
  | stopped _ _ | progress _ _ _ => .info
  | searchAccepted _ _ | fallback _ | newtonStep _ _ | subspaceStep _ | restart _ | dropped _ _
  | innerSolve _ _ | interiorStep _ _ | stored _ => .debug

/-- Why work ends early. -/
inductive Stop (α : Type)
  | fault (why : ShapeFault)
  | failure (why : Failure α)
  deriving DecidableEq, Repr

/-- Work done: what was noted, which stays when the work ends early, and what came of it. -/
structure Work (α β : Type) where
  events : List (Event α)
  outcome : Except (Stop α) β

namespace Work

variable {α β γ : Type}

/-- Work that notes nothing. -/
def quiet (outcome : Except (Stop α) β) : Work α β :=
  ⟨[], outcome⟩

/-- The second piece of work follows the first if that came to an end. -/
def andThen (first : Work α β) (second : β → Work α γ) : Work α γ :=
  match first.outcome with
  | .ok b =>
    let rest := second b
    ⟨first.events ++ rest.events, rest.outcome⟩
  | .error stop => ⟨first.events, .error stop⟩

instance : Monad (Work α) where
  pure b := quiet (.ok b)
  bind := andThen

def note (e : Event α) : Work α Unit :=
  ⟨[e], .ok ()⟩

def notes (es : List (Event α)) : Work α Unit :=
  ⟨es, .ok ()⟩

def fail (why : Failure α) : Work α β :=
  quiet (.error (.failure why))

/-- A checked result as work. -/
def ofChecked (result : Checked β) : Work α β :=
  quiet (result.mapError .fault)

/-- A result that may be a failure as work. -/
def ofExcept (result : Except (Failure α) β) : Work α β :=
  quiet (result.mapError .failure)

instance : MonadLift Checked (Work α) :=
  ⟨ofChecked⟩

instance : MonadLift (Except (Failure α)) (Work α) :=
  ⟨ofExcept⟩

end Work

end Downhill
