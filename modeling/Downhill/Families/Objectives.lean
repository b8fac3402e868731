import Downhill.Objective

namespace Downhill.Objective

variable {α : Type} [Scalar α]

/-- Half the quadratic form of a table at the displacement from a centre. -/
def quadratic (A : Table α) (center : Coords α) : Objective α where
  value x := do
    let r ← x.sub center
    return 0.5 * (← r.dot (← A.apply r))
  gradient x := do A.apply (← x.sub center)
  hessian _ := .ok A
  curvature _ v := A.apply v
  expand x := do
    let r ← x.sub center
    let g ← A.apply r
    return (0.5 * (← r.dot g), g)

/-- A coefficient times powers of the coordinates. -/
structure Term (α : Type) where
  coefficient : α
  powers : List Nat

/-- A power by repeated multiplication. -/
def power (v : α) : Nat → α
  | 0 => 1
  | n + 1 => power v n * v

namespace Term

/-- The derivative by one coordinate, as a term. -/
def derive (t : Term α) (i : Nat) : Term α :=
  let p := t.powers.getD i 0
  ⟨t.coefficient * (p : α), t.powers.set i (p - 1)⟩

/-- The value of the term, factor after factor. -/
def value (t : Term α) (x : Coords α) : α :=
  (List.zip x.toList t.powers).foldl (fun v f => v * power f.1 f.2) t.coefficient

/-- The sum of terms at a point. -/
def sum (terms : List (Term α)) (x : Coords α) : α :=
  Scalar.total (terms.map fun t => t.value x)

end Term

/-- A computation at points of one size alone. -/
def sized {β : Type} (n : Nat) (x : Coords α) (result : β) : Checked β :=
  if x.size = n then .ok result else .error (.sizes n x.size)

/-- The value of a polynomial in `n` coordinates. -/
def polynomialValue (n : Nat) (terms : List (Term α)) (x : Coords α) : Checked α :=
  sized n x (Term.sum terms x)

def polynomialGradient (n : Nat) (terms : List (Term α)) (x : Coords α) : Checked (Coords α) :=
  sized n x (Coords.ofFn fun i : Fin n => Term.sum (terms.map (·.derive i)) x)

def polynomialHessian (n : Nat) (terms : List (Term α)) (x : Coords α) : Checked (Table α) :=
  sized n x (Table.ofFn n n fun i j => Term.sum (terms.map fun t => (t.derive i).derive j) x)

/-- A polynomial with its exact Hessian. -/
def polynomial (n : Nat) (terms : List (Term α)) : Objective α :=
  ofHessian (polynomialValue n terms) (polynomialGradient n terms) (polynomialHessian n terms)

/-- A polynomial whose Hessian is taken from differences. -/
def roughPolynomial (n : Nat) (terms : List (Term α)) : Objective α :=
  ofGradient (polynomialValue n terms) (polynomialGradient n terms)

/-- A distance that is smooth at zero. -/
def smoothed (r : α) : α :=
  Scalar.sqrt (1 + r * r)

/-- The weighted sum of the smoothed distances of the coordinates from a centre. -/
def smoothedDistance (weights center : Coords α) : Objective α :=
  ofGradient
    (fun x => do
      let r ← x.sub center
      weights.dot (r.map smoothed))
    (fun x => do
      let r ← x.sub center
      Coords.combine (· * ·) (r.map fun v => v / smoothed v) weights)

/-- The sum of linear terms less the square roots of the coordinates. -/
def rootSum (c : Coords α) : Objective α :=
  ofHessian
    (fun x => do
      let terms ← Coords.combine (fun a v => a * v - Scalar.sqrt v) c x
      return Scalar.total terms.toList)
    (fun x => Coords.combine (fun a v => a - 0.5 / Scalar.sqrt v) c x)
    (fun x => .ok (.ofFn x.size x.size fun i j =>
      if i = j then 0.25 / (x.entry i * Scalar.sqrt (x.entry i)) else 0))

/-- The same value, gradient and Hessian everywhere. -/
def constant (value : α) (gradient : Coords α) (hessian : Table α) : Objective α :=
  ofHessian (fun _ => .ok value) (fun _ => .ok gradient) (fun _ => .ok hessian)

end Downhill.Objective
