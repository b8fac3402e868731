import Downhill.Named
import Downhill.Scalar

namespace Downhill

/-- Named series with so many places each. -/
@[ext]
structure History (α : Type) (places : Nat) where
  series : Named (Vector α places)

namespace History

variable {α : Type} {places : Nat}

/-- The name of the series of the objective. -/
def objectiveName : String :=
  "func_values"

/-- The name of the series of times. -/
def timeName : String :=
  "time"

def empty : History α places :=
  ⟨∅⟩

/-- The value recorded under a name at a place. -/
def at? (h : History α places) (name : String) (place : Nat) : Option α := do
  let values ← h.series.find? name
  values[place]?

variable [Zero α]

/-- A value recorded at a place; outside the series nothing is recorded. -/
def record (h : History α places) (name : String) (place : Nat) (v : α) : History α places :=
  if inside : place < places then
    ⟨h.series.alter name fun values =>
      (values.getD (Vector.replicate places 0)).set place v inside⟩
  else h

/-- Several values recorded at one place. -/
def recordAll (h : History α places) (place : Nat) (values : List (String × α)) :
    History α places :=
  values.foldl (fun h v => h.record v.1 place v.2) h

end History

end Downhill
