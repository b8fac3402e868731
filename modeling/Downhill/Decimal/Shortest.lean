import Downhill.Decimal.Rounding

namespace Downhill

/-- The interval of numbers that round to the double with the given significand and exponent, on a
common denominator: its ends, the double itself, and whether the ends belong to it. -/
structure RoundingInterval where
  low : Nat
  middle : Nat
  high : Nat
  den : Nat
  closed : Bool
  deriving DecidableEq, Repr

namespace RoundingInterval

/-- Half way to both neighbours. Below a power of two the lower neighbour is only half as far. -/
def around (significand : Nat) (exponent : Int) : RoundingInterval :=
  let unit := Ratio.scaled 1 2 (exponent - 2)
  let below :=
    if significand = Double.leadingBit ∧ Double.lowestExponent < exponent then 1 else 2
  { low := (4 * significand - below) * unit.num
    middle := 4 * significand * unit.num
    high := (4 * significand + 2) * unit.num
    den := unit.den
    closed := significand % 2 = 0 }

/-- Whether a fraction lies in the interval. -/
def holds (i : RoundingInterval) (r : Ratio) : Bool :=
  if i.closed then i.low * r.den ≤ r.num * i.den ∧ r.num * i.den ≤ i.high * r.den
  else i.low * r.den < r.num * i.den ∧ r.num * i.den < i.high * r.den

/-- The neighbour of the middle on the grid of multiples of `10 ^ (-places)` that lies in the
interval. -/
def onGrid (i : RoundingInterval) (tie : Tie) (places : Int) : Option Decimal :=
  let scaled := (Ratio.mk i.middle i.den).shift places
  let nearest := scaled.round tie
  let other := if nearest * scaled.den ≤ scaled.num then nearest + 1 else nearest - 1
  let inside (c : Nat) : Bool := i.holds ((Ratio.mk c 1).shift (-places))
  if inside nearest then some ⟨nearest, -places⟩
  else if inside other then some ⟨other, -places⟩
  else none

end RoundingInterval

/-- The shortest decimal that reads back as the positive double with this significand and exponent: the first
of the grids of one, two, … digits with a neighbour in the interval; seventeen digits are always enough. -/
def Decimal.shortest (tie : Tie) (significand : Nat) (exponent : Int) : Decimal :=
  let interval := RoundingInterval.around significand exponent
  let value := Ratio.mk interval.middle interval.den
  let found := (List.range 16).findSome? fun digits : Nat => interval.onGrid tie (digits - value.leading)
  (found.getD (Decimal.ofDigits value 17 tie)).strip

end Downhill
