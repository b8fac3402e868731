import Downhill.Decimal.Rounding

namespace Downhill.Decimal

/-- The greatest significand: all bits of a word. -/
def wordLimit : Nat :=
  0xFFFFFFFFFFFFFFFF

/-- Appends digits to a significand up to the first that would carry it beyond a word, and hands on
the digits from there. -/
def takeDigits (significand : Nat) : List Nat → Nat × List Nat
  | [] => (significand, [])
  | d :: ds =>
    let longer := 10 * significand + d
    if longer ≤ wordLimit then takeDigits longer ds else (significand, d :: ds)

/-- The decimal with digits in front of the point and behind it, times a power of ten, cut to one
word. A digit that is left over in front of the point counts as a place, and one behind it for nothing. -/
def ofDigitsAround (front back : List Nat) (power : Int) : Decimal :=
  let (whole, uncounted) := takeDigits 0 front
  let (significand, dropped) := takeDigits whole back
  ⟨significand, power + uncounted.length - (back.length - dropped.length : Nat)⟩

/-- The exponent of the greatest power of ten that is a double. -/
def greatestPower : Nat :=
  308

/-- A power of ten as a double. -/
def powerOfTen (k : Nat) : Float :=
  Float.ofScientific 1 false k

/-- A double divided by a power of ten, by the greatest one as long as there is more to divide by
and something left. -/
def divide (v : Float) (k : Nat) : Float :=
  if k ≤ greatestPower then v / powerOfTen k
  else if v == 0.0 then v
  else divide (v / powerOfTen greatestPower) (k - greatestPower)
termination_by k
decreasing_by simp_all only [greatestPower]; omega

/-- The double that a decimal with a coefficient of one word is read as, or nothing where it would be infinite.
The coefficient, as a double, is multiplied or divided by a power of ten, again a double; so up to fifteen
digits with a small exponent give the nearest double, and any others a double close by. -/
def toFloat? (d : Decimal) : Option Float :=
  let v := d.coefficient.toUInt64.toFloat
  match d.exponent with
  | .ofNat k =>
    if v == 0.0 then some v
    else if greatestPower < k then none
    else
      let scaled := v * powerOfTen k
      if scaled.isInf then none else some scaled
  | .negSucc k => some (divide v (k + 1))

end Downhill.Decimal
