import Downhill.Decimal.Double

namespace Downhill

/-- The number `coefficient * 10 ^ exponent`. -/
structure Decimal where
  coefficient : Nat
  exponent : Int
  deriving DecidableEq, Repr

/-- The neighbour that an exact half goes to. -/
inductive Tie
  | even
  | upper
  deriving DecidableEq, Repr

/-- The nearest whole number. -/
def Ratio.round (r : Ratio) (tie : Tie) : Nat :=
  let low := r.num / r.den
  let rest := r.num % r.den
  if 2 * rest < r.den then low
  else if r.den < 2 * rest then low + 1
  else if tie = .even ∧ low % 2 = 0 then low
  else low + 1

/-- The number of decimal digits of a positive number. -/
def digitCount (n : Nat) : Nat :=
  (Nat.toDigits 10 n).length

/-- The exponent of the leading decimal digit of a positive fraction. -/
def Ratio.leading (r : Ratio) : Int :=
  let guess : Int := (digitCount r.num : Int) - digitCount r.den
  let reached := (Ratio.mk 1 1).shift guess
  if reached.num * r.den ≤ r.num * reached.den then guess else guess - 1

namespace Decimal

/-- A coefficient without its trailing zeros, their number moved into the exponent. At most `fuel`
zeros are taken off. -/
def stripAux : Nat → Nat → Int → Decimal
  | 0, c, e => ⟨c, e⟩
  | fuel + 1, c, e =>
    if c ≠ 0 ∧ c % 10 = 0 then stripAux fuel (c / 10) (e + 1) else ⟨c, e⟩

/-- The same number without trailing zeros in its coefficient. -/
def strip (d : Decimal) : Decimal :=
  stripAux (digitCount d.coefficient) d.coefficient d.exponent

/-- The exponent of the leading digit. -/
def leading (d : Decimal) : Int :=
  d.exponent + digitCount d.coefficient - 1

/-- A fraction rounded to the grid of multiples of `10 ^ (-places)`. -/
def ofPlaces (r : Ratio) (places : Int) (tie : Tie) : Decimal :=
  ⟨(r.shift places).round tie, -places⟩

/-- A positive fraction rounded to so many significant digits. A carry may add one more digit, a
zero. -/
def ofDigits (r : Ratio) (count : Nat) (tie : Tie) : Decimal :=
  ofPlaces r (count - 1 - r.leading) tie

end Decimal

end Downhill
