namespace Downhill

/-- The operations on numbers that the methods use, without any law, so that machine numbers have them too.
Comparisons are decidable but need not be total: an unordered value answers no to every comparison. -/
class Scalar (α : Type) extends Zero α, One α, Add α, Sub α, Mul α, Div α, Neg α, NatCast α,
    IntCast α, OfScientific α, LT α, LE α where
  decLt : DecidableLT α
  decLe : DecidableLE α
  sqrt : α → α
  abs : α → α
  /-- One with the sign of the argument, also where the argument is a zero. -/
  signum : α → α
  isFinite : α → Bool

attribute [reducible, instance] Scalar.decLt Scalar.decLe

namespace Scalar

variable {α : Type} [Scalar α]

/-- The value raised to the floor; the floor itself also where the value is unordered. -/
def atLeast (floor v : α) : α :=
  if floor < v then v else floor

/-- The smaller of two, where an unordered second argument leaves the first. -/
def lesser (a b : α) : α :=
  if b < a then b else a

/-- A zero of either sign. -/
def IsZero (v : α) : Prop :=
  v ≤ 0 ∧ 0 ≤ v

instance (v : α) : Decidable (IsZero v) :=
  inferInstanceAs (Decidable (_ ∧ _))

/-- The smallest normal number of the double format, the floor of every relative tolerance. -/
def smallestNormal : α :=
  1 / ((Nat.pow 2 1022 : Nat) : α)

/-- Sum from the left, starting at zero. -/
def total (terms : List α) : α :=
  terms.foldl (· + ·) 0

end Scalar

end Downhill
