import Downhill.LinearSystem
import Downhill.Method
import Downhill.Random.Projection
import Downhill.Search.Armijo

namespace Downhill.RandomSubspace

/-- How the basis is found. -/
inductive Mode
  /-- Independent normal entries, divided by the dimension. -/
  | random
  /-- The basis of the whole space. -/
  | identity
  deriving DecidableEq, Repr

namespace Mode

/-- The words for the modes. -/
def words : List String :=
  ["random", "identity"]

def toFin : Mode → Fin words.length
  | random => ⟨0, by decide⟩
  | identity => ⟨1, by decide⟩

def ofFin (i : Fin words.length) : Mode :=
  if i.val = 0 then random else identity

theorem ofFin_toFin (m : Mode) : ofFin m.toFin = m := by
  cases m <;> rfl

theorem toFin_ofFin (i : Fin words.length) : (ofFin i).toFin = i := by
  match i with
  | ⟨0, _⟩ => rfl
  | ⟨1, _⟩ => rfl

end Mode

/-- What a basis is drawn for: the mode, and how many rows in how many dimensions. -/
structure Shape where
  mode : Mode
  rows : UInt64
  dim : UInt64
  deriving DecidableEq, Repr

variable {α σ : Type} [Scalar α]

/-- A basis, drawn from a source of samples. -/
def Shape.draw (shape : Shape) (next : σ → α × σ) (source : σ) : Table α × σ :=
  match shape.mode with
  | .random => Projection.random next shape.rows.toNat shape.dim.toNat source
  | .identity => (Table.identity shape.dim.toNat, source)

/-- A subspace has at least one dimension and no more than the space. -/
def requireShape (rows dim : UInt64) : Except (Failure α) Unit := do
  requireNonzero "dim" dim
  requireNonzero "reduced_dim" rows
  if dim < rows then throw (.refusedSetting "reduced_dim" (.exceedsDimension dim rows))

/-- A run starts from points of the space alone. -/
def start (dim : UInt64) (x : Coords α) : Except (Failure α) (PointState α) :=
  if x.size = dim.toNat then .ok (.initial x) else .error (.sizeMismatch dim.toNat x.size)

/-- The point moved within the subspace. -/
def moved (s : PointState α) (space : Subspace α) (d : Coords α) (t : α) :
    Checked (PointState α) := do
  let displacement ← space.embed d
  return { s with point := ← s.point.add (displacement.scale t) }

namespace Gradient

/-- The configuration. -/
structure Config (α : Type) where
  /-- The first step of the line search. -/
  initial : α
  rows : UInt64
  dim : UInt64
  mode : Mode
  alpha : α
  beta : α
  deriving Repr

def schema : Schema α (Config α) where
  algorithm := "SubspaceGradientDescent"
  fields := [⟨"lr", .real⟩, ⟨"reduced_dim", .count⟩, ⟨"dim", .count⟩, ⟨"mode", .choice Mode.words⟩,
    ⟨"alpha", .real⟩, ⟨"beta", .real⟩]
  toRow c := (c.initial, c.rows, c.dim, c.mode.toFin, c.alpha, c.beta, ())
  ofRow r := ⟨r.1, r.2.1, r.2.2.1, .ofFin r.2.2.2.1, r.2.2.2.2.1, r.2.2.2.2.2.1⟩
  validate c := do
    requirePositive "lr" c.initial
    requireShape c.rows c.dim
    requireFraction "alpha" c.alpha
    requireFraction "beta" c.beta
  ofRow_toRow := by
    intro c
    simp only [Mode.ofFin_toFin]
  toRow_ofRow := by
    rintro ⟨initial, rows, dim, mode, alpha, beta, _⟩
    exact congrArg (fun i => (initial, rows, dim, i, alpha, beta, ())) (Mode.toFin_ofFin mode)

def Config.search (config : Config α) : Armijo α :=
  ⟨config.alpha, config.beta, config.initial⟩

def Config.shape (config : Config α) : Shape :=
  ⟨config.mode, config.rows, config.dim⟩

def direction (gradient : Coords α) : Coords α :=
  gradient.neg

/-- A step of gradient descent in the subspace that the basis spans through the point. -/
def step (config : Config α) (f : Objective α) (basis : Table α) (s : PointState α) :
    Work α (PointState α) := do
  let space : Subspace α := ⟨s.point, basis⟩
  let (value, gradient) ← (f.restrict space).expand (.zeros space.dim)
  let d := direction gradient
  let found ← config.search.runWithin f space value gradient d
  Work.note (.subspaceStep found.step)
  moved s space d found.step

def method (next : σ → α × σ) :
    Method α (Objective α) (Config α) (PointState α) (Table α) σ where
  tag := "SubspaceGD"
  schema := schema
  objective := id
  start config _ x := start config.dim x
  draw config := config.shape.draw next
  step := step
  point := PointState.point
  finished := PointState.finished
  measures := [gradientMeasure PointState.point]
  distinct := PointState.distinct_gradientMeasure

end Gradient

namespace Newton

/-- The configuration. -/
structure Config (α : Type) where
  dim : UInt64
  rows : UInt64
  mode : Mode
  alpha : α
  beta : α
  deriving Repr

def schema : Schema α (Config α) where
  algorithm := "SubspaceNewton"
  fields := [⟨"dim", .count⟩, ⟨"reduced_dim", .count⟩, ⟨"mode", .choice Mode.words⟩,
    ⟨"alpha", .real⟩, ⟨"beta", .real⟩]
  toRow c := (c.dim, c.rows, c.mode.toFin, c.alpha, c.beta, ())
  ofRow r := ⟨r.1, r.2.1, .ofFin r.2.2.1, r.2.2.2.1, r.2.2.2.2.1⟩
  validate c := do
    requireShape c.rows c.dim
    requireFraction "alpha" c.alpha
    requireFraction "beta" c.beta
  ofRow_toRow := by
    intro c
    simp only [Mode.ofFin_toFin]
  toRow_ofRow := by
    rintro ⟨dim, rows, mode, alpha, beta, _⟩
    exact congrArg (fun i => (dim, rows, i, alpha, beta, ())) (Mode.toFin_ofFin mode)

def Config.search (config : Config α) : Armijo α :=
  ⟨config.alpha, config.beta, 1⟩

def Config.shape (config : Config α) : Shape :=
  ⟨config.mode, config.rows, config.dim⟩

def direction (gradient : Coords α) (hessian : Table α) : Except (Failure α) (Coords α) :=
  solve hessian gradient.neg "subspace Newton direction"

/-- A step of Newton's method in the subspace that the basis spans through the point. -/
def step (config : Config α) (f : Objective α) (basis : Table α) (s : PointState α) :
    Work α (PointState α) := do
  let space : Subspace α := ⟨s.point, basis⟩
  let origin := Coords.zeros space.dim
  let (value, gradient) ← (f.restrict space).expand origin
  let hessian ← (f.restrict space).hessian origin
  let d ← direction gradient hessian
  let found ← config.search.runWithin f space value gradient d
  moved s space d found.step

def method (next : σ → α × σ) :
    Method α (Objective α) (Config α) (PointState α) (Table α) σ where
  tag := "SubspaceNewton"
  schema := schema
  objective := id
  start config _ x := start config.dim x
  draw config := config.shape.draw next
  step := step
  point := PointState.point
  finished := PointState.finished
  measures := [gradientMeasure PointState.point]
  distinct := PointState.distinct_gradientMeasure

end Newton

end Downhill.RandomSubspace
