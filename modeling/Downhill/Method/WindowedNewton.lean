import Downhill.LinearSystem
import Downhill.Method
import Downhill.Search.Armijo
import Downhill.Spectrum

namespace Downhill.WindowedNewton

/-- The configuration. -/
structure Config (α : Type) where
  /-- The number of rows in a full window, two for each pair. -/
  rows : UInt64
  /-- What the eigenvalues on the span are raised to. -/
  threshold : α
  alpha : α
  beta : α
  deriving Repr

/-- The point, and the window: the latest points as rows, each above its gradient, the oldest pair on top. -/
structure State (α : Type) where
  point : Coords α
  window : Option (Table α)
  finished : Bool

variable {α : Type} [Scalar α]

def requireEvenRows (name : String) (rows : UInt64) : Except (Failure α) Unit :=
  if rows < 2 ∨ rows % 2 ≠ 0 then .error (.refusedSetting name (.oddRows rows)) else .ok ()

def schema : Schema α (Config α) where
  algorithm := "LimitedMemoryNewton"
  fields := [⟨"matrix_size", .count⟩, ⟨"threshold_eigenvalue", .real⟩, ⟨"alpha", .real⟩,
    ⟨"beta", .real⟩]
  toRow c := (c.rows, c.threshold, c.alpha, c.beta, ())
  ofRow r := ⟨r.1, r.2.1, r.2.2.1, r.2.2.2.1⟩
  validate c := do
    requireEvenRows "matrix_size" c.rows
    requirePositive "threshold_eigenvalue" c.threshold
    requireFraction "alpha" c.alpha
    requireFraction "beta" c.beta

def Config.search (config : Config α) : Armijo α :=
  ⟨config.alpha, config.beta, 1⟩

/-- The window with one more pair, the oldest one dropped if the window was full. -/
def extend (config : Config α) (window : Option (Table α)) (x gradient : Coords α) :
    Except (Failure α) (Table α) :=
  if same : gradient.size = x.size then
    let pair := Table.pair x gradient same
    match window with
    | none => .ok pair
    | some old =>
      let kept := if old.height < config.rows.toNat then old else old.dropRows 2
      if fits : pair.width = kept.width then .ok (kept.stack pair fits)
      else .error (.sizeMismatch x.size old.width)
  else .error (.sizeMismatch x.size gradient.size)

/-- A square table with the same amount added to every diagonal entry. -/
def shiftDiagonal (A : Table α) (amount : α) : Table α :=
  .ofFn A.height A.width fun i j => if i.val = j.val then A.entry i j + amount else A.entry i j

/-- The table shifted, if its smallest eigenvalue is below the threshold, by what is missing. -/
def regularize (config : Config α) (hessian : Table α) : Checked (Table α) := do
  let spectrum ← hessian.spectrum
  match spectrum.least with
  | none => return hessian
  | some low =>
    if low < config.threshold then return shiftDiagonal hessian (config.threshold - low)
    else return hessian

def direction (gradient : Coords α) (hessian : Table α) : Work α (Coords α) :=
  solveDefinite hessian gradient.neg "limited-memory Newton direction"

/-- A Newton step in the span of the window, whose Hessian is raised so that the direction descends. -/
def step (config : Config α) (f : Objective α) (s : State α) : Work α (State α) := do
  let (value, gradient) ← f.expand s.point
  let window ← extend config s.window s.point gradient
  let span : Subspace α := ⟨s.point, window⟩
  let reduced ← window.apply gradient
  let full ← (f.restrict span).hessian (.zeros window.height)
  let hessian ← regularize config full
  let d ← direction reduced hessian
  let found ← config.search.runWithin f span value reduced d
  let displacement ← span.embed d
  return { s with point := ← s.point.add (displacement.scale found.step), window := some window }

def method : Method α (Objective α) (Config α) (State α) Unit Unit where
  tag := "LMNewton"
  schema := schema
  objective := id
  start _ _ x := return ⟨x, none, false⟩
  draw := noDraw
  step config f _ s := step config f s
  point := State.point
  finished := State.finished
  measures := [gradientMeasure State.point]
  distinct := distinct_gradientMeasure State.point

end Downhill.WindowedNewton
