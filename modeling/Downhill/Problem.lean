import Downhill.Objective

namespace Downhill

/-- Inequality constraints: a point is feasible where no value is positive. -/
structure Constraints (α : Type) where
  values : Coords α → Checked (Coords α)
  /-- The gradients of the values, one row a constraint. -/
  jacobian : Coords α → Checked (Table α)
  /-- The Hessians of the values at the first point, summed with the second as weights. -/
  curvature : Coords α → Coords α → Checked (Table α)
  count : Nat

namespace Constraints

variable {α : Type} [Scalar α]

/-- No value is positive. -/
def feasible (c : Constraints α) (x : Coords α) : Checked Bool := do
  return (← c.values x).toList.all fun v => decide (v ≤ 0)

/-- Every value is negative. -/
def strictlyFeasible (c : Constraints α) (x : Coords α) : Checked Bool := do
  return (← c.values x).toList.all fun v => decide (v < 0)

end Constraints

/-- The proximal map of a term: for a point and a scale the minimizer of the term plus the squared
distance to the point over twice the scale. -/
abbrev Proximal (α : Type) :=
  Coords α → α → Checked (Coords α)

namespace Proximal

variable {α : Type} [Scalar α]

/-- The map of the indicator of the points without negative coordinate. -/
def nonnegative : Proximal α :=
  fun p _ => .ok (p.map (Scalar.atLeast 0))

/-- The map of a multiple of the sum of the absolute values: every coordinate moves towards zero by
the weight times the scale, and no further. -/
def softThreshold (weight : α) : Proximal α :=
  fun p scale =>
    let level := weight * scale
    .ok (p.map fun v => Scalar.signum v * Scalar.atLeast 0 (Scalar.abs v - level))

end Proximal

/-- A smooth objective plus a term with a proximal map. -/
structure Composite (α : Type) where
  smooth : Objective α
  prox : Proximal α

/-- An objective under inequality constraints. -/
structure Constrained (α : Type) where
  objective : Objective α
  constraints : Constraints α

end Downhill
