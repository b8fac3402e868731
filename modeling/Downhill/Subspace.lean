import Downhill.Objective

namespace Downhill

/-- The points `origin + basisᵀ d`. -/
structure Subspace (α : Type) where
  origin : Coords α
  basis : Table α

namespace Subspace

variable {α : Type} [Scalar α]

def dim (s : Subspace α) : Nat :=
  s.basis.height

/-- The displacement that the coordinates stand for. -/
def embed (s : Subspace α) (d : Coords α) : Checked (Coords α) :=
  s.basis.combineRows d

/-- The point with the given coordinates. -/
def lift (s : Subspace α) (d : Coords α) : Checked (Coords α) := do
  s.origin.add (← s.embed d)

end Subspace

/-- An objective on a subspace, as a function of the coordinates there. By the chain rule its
gradient is the basis times the gradient, and its Hessian the basis times the Hessian times the
transposed basis. -/
def Objective.restrict {α : Type} [Scalar α] (f : Objective α) (s : Subspace α) : Objective α where
  value d := do f.value (← s.lift d)
  gradient d := do s.basis.apply (← f.gradient (← s.lift d))
  hessian d := do
    let full ← f.hessian (← s.lift d)
    let left ← s.basis.mul full
    (← left.mul s.basis.transpose).symmetrize
  curvature d v := do
    let x ← s.lift d
    let w ← s.embed v
    s.basis.apply (← f.curvature x w)
  expand d := do
    let (v, g) ← f.expand (← s.lift d)
    return (v, ← s.basis.apply g)

end Downhill
