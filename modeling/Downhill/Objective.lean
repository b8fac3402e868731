import Downhill.Table

namespace Downhill

/-- A smooth function of a point, with its derivatives, however they are come by. -/
structure Objective (α : Type) where
  value : Coords α → Checked α
  gradient : Coords α → Checked (Coords α)
  hessian : Coords α → Checked (Table α)
  /-- The Hessian at the first point times the second. -/
  curvature : Coords α → Coords α → Checked (Coords α)
  /-- Value and gradient at one point. -/
  expand : Coords α → Checked (α × Coords α)

namespace Difference

variable {α : Type} [Scalar α]

/-- The step relative to the size of a coordinate. -/
def relativeStep : α :=
  1e-5

/-- The step in a coordinate with the given value. -/
def step (v : α) : α :=
  relativeStep * Scalar.atLeast 1 (Scalar.abs v)

/-- The point with one coordinate replaced. -/
def probe (x : Coords α) (j : Fin x.size) (v : α) : Coords α :=
  Coords.ofFn fun i : Fin x.size => if i = j then v else x.entry i

/-- The points at which the gradient is asked for: for each coordinate one step forward, then one
back. -/
def probes (x : Coords α) : List (Coords α) :=
  (List.finRange x.size).flatMap fun j =>
    [probe x j (x.entry j + step (x.entry j)), probe x j (x.entry j - step (x.entry j))]

/-- The difference quotients, one a coordinate, from the gradients at the probes. -/
def quotients : List α → List (Coords α) → Checked (List (Coords α))
  | h :: steps, forward :: back :: others => do
    let change ← forward.sub back
    let rest ← quotients steps others
    return change.map (· / (2.0 * h)) :: rest
  | _, _ => .ok []

/-- The table whose columns are the difference quotients, made symmetric. -/
def assemble (x : Coords α) (gradients : List (Coords α)) : Checked (Table α) := do
  let columns ← quotients (x.toList.map step) gradients
  let stacked ← Table.ofRows x.size columns.toArray
  stacked.transpose.symmetrize

/-- The Hessian from the gradients at the probes. -/
def hessian (gradient : Coords α → Checked (Coords α)) (x : Coords α) : Checked (Table α) := do
  assemble x (← (probes x).mapM gradient)

end Difference

namespace Objective

variable {α : Type} [Scalar α]

/-- An objective given by value, gradient and Hessian. -/
def ofHessian (value : Coords α → Checked α) (gradient : Coords α → Checked (Coords α))
    (hessian : Coords α → Checked (Table α)) : Objective α where
  value := value
  gradient := gradient
  hessian := hessian
  curvature x v := do (← hessian x).apply v
  expand x := do
    let v ← value x
    let g ← gradient x
    return (v, g)

/-- An objective given by value and gradient alone. -/
def ofGradient (value : Coords α → Checked α) (gradient : Coords α → Checked (Coords α)) :
    Objective α :=
  ofHessian value gradient (Difference.hessian gradient)

/-- The length of the gradient. -/
def gradientNorm (f : Objective α) (x : Coords α) : Checked α := do
  return (← f.gradient x).norm

end Objective

end Downhill
