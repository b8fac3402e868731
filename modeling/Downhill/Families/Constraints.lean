import Downhill.Problem

namespace Downhill

variable {α : Type} [Scalar α]

namespace Constraints

/-- The half-spaces `a x ≤ b`, one for each row. -/
def linear (a : Table α) (b : Coords α) : Constraints α where
  values x := do (← a.apply x).sub b
  jacobian _ := .ok a
  curvature x _ := .ok (.zeros x.size x.size)
  count := b.size

/-- The points within a distance of a centre. -/
def ball (center : Coords α) (radius : α) : Constraints α where
  values x := do
    let r ← x.sub center
    return .constant 1 ((← r.dot r) - radius * radius)
  jacobian x := do
    let r ← x.sub center
    Table.ofRows r.size #[r.scale 2.0]
  curvature x multipliers :=
    if present : 0 < multipliers.size then
      .ok (.ofFn x.size x.size fun i j => if i = j then (2.0 : α) * multipliers[0] else 0)
    else .error (.position 0 multipliers.size)
  count := 1

/-- One quadratic inequality: half a quadratic form, a linear form and a constant. -/
structure Quadratic (α : Type) where
  form : Table α
  slope : Coords α
  offset : α

/-- Quadratic inequalities in `n` coordinates. -/
def quadratic (n : Nat) (parts : List (Quadratic α)) : Constraints α where
  values x := do
    let values ← parts.mapM fun p => do
      return 0.5 * (← x.dot (← p.form.apply x)) + (← p.slope.dot x) + p.offset
    return .ofList values
  jacobian x := do
    let rows ← parts.mapM fun p => do (← p.form.apply x).add p.slope
    Table.ofRows n rows.toArray
  curvature _ multipliers :=
    if multipliers.size = parts.length then
      (List.zip multipliers.toList parts).foldlM (fun sum p => sum.add (p.2.form.scale p.1)) (.zeros n n)
    else .error (.sizes parts.length multipliers.size)
  count := parts.length

end Constraints

namespace Proximal

/-- The map of half the squared length. -/
def shrink : Proximal α :=
  fun p scale => .ok (p.scale (1 / (1 + scale)))

/-- The map onto a single point. -/
def constant (point : Coords α) : Proximal α :=
  fun _ _ => .ok point

end Proximal

end Downhill
