import Downhill.History
import Downhill.Problem
import Downhill.Schema
import Downhill.Work

namespace Downhill

/-- Something measured at the states of a run, and the name of its series. -/
structure Measure (α P S : Type) where
  name : String
  value : P → S → Checked α

/-- A method for problems of type `P`, with configurations `C` and states `S`. Every step uses a draw
of type `D` from a source of type `σ`. -/
structure Method (α P C S D σ : Type) where
  tag : String
  schema : Schema α C
  objective : P → Objective α
  start : C → P → Coords α → Work α S
  draw : C → σ → D × σ
  step : C → P → D → S → Work α S
  point : S → Coords α
  /-- Set once the method has nothing left to improve. -/
  finished : S → Bool
  /-- What is measured at a state, apart from the objective. -/
  measures : List (Measure α P S)
  /-- The series of a run have different names. -/
  distinct : (History.objectiveName :: History.timeName :: measures.map Measure.name).Nodup

/-- The draw of a method that uses no randomness. -/
def noDraw {C : Type} (_ : C) (source : Unit) : Unit × Unit :=
  ((), source)

/-- The state of a method that keeps nothing but its point. -/
structure PointState (α : Type) where
  point : Coords α
  finished : Bool

namespace PointState

variable {α : Type}

def initial (x : Coords α) : PointState α :=
  ⟨x, false⟩

end PointState

/-- The state of a method that keeps a multiplier for each constraint beside its point. -/
structure MultiplierState (α : Type) where
  point : Coords α
  multipliers : Coords α
  finished : Bool

/-- A method may measure nothing but the objective. -/
theorem History.distinct_nil : [History.objectiveName, History.timeName].Nodup := by
  decide

/-- The length of the gradient. -/
def gradientMeasure {α S : Type} [Scalar α] (point : S → Coords α) : Measure α (Objective α) S where
  name := "grad_norm"
  value f s := f.gradientNorm (point s)

/-- The gradient may be measured beside the objective. -/
theorem distinct_gradientMeasure {α S : Type} [Scalar α] (point : S → Coords α) :
    (History.objectiveName :: History.timeName ::
      [gradientMeasure point].map Measure.name).Nodup := by
  change [History.objectiveName, History.timeName, "grad_norm"].Nodup
  decide

/-- The gradient at the point alone. -/
theorem PointState.distinct_gradientMeasure {α : Type} [Scalar α] :
    (History.objectiveName :: History.timeName ::
      [gradientMeasure (PointState.point (α := α))].map Measure.name).Nodup :=
  Downhill.distinct_gradientMeasure _

end Downhill
