import Downhill.Scalar

namespace Downhill

/-- One with the sign bit of the argument; an undefined argument is left as it is. -/
def doubleSign (v : Float) : Float :=
  if v.isNaN then v else if v.toBits < 0x8000000000000000 then 1.0 else -1.0

instance : Scalar Float where
  zero := Float.ofNat 0
  one := Float.ofNat 1
  add := Float.add
  sub := Float.sub
  mul := Float.mul
  div := Float.div
  neg := Float.neg
  natCast := Float.ofNat
  intCast := Float.ofInt
  ofScientific := Float.ofScientific
  lt a b := a < b
  le a b := a ≤ b
  decLt := Float.decLt
  decLe := Float.decLe
  sqrt := Float.sqrt
  abs := Float.abs
  signum := doubleSign
  isFinite := Float.isFinite

end Downhill
