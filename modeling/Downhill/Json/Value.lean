import Downhill.Decimal.Reading

namespace Downhill

/-- A written number: its sign, its digits in front of the point and behind it, and the power of ten
that follows, if one does. -/
structure Numeral where
  negative : Bool
  front : List Nat
  back : List Nat
  power : Option Int
  deriving DecidableEq, Repr

/-- The number that decimal digits spell, most significant first. -/
def digitsValue (ds : List Nat) : Nat :=
  ds.foldl (fun n d => 10 * n + d) 0

namespace Numeral

/-- Whether the number is written with digits alone. -/
def isWhole (n : Numeral) : Bool :=
  n.back.isEmpty && n.power.isNone

/-- The whole number, for a numeral without fraction and exponent. A negative zero is none. -/
def toInt? (n : Numeral) : Option Int :=
  let magnitude := digitsValue n.front
  if n.isWhole = true ∧ ¬(n.negative = true ∧ magnitude = 0) then
    some (if n.negative then -(magnitude : Int) else magnitude)
  else none

/-- The double that the number is read as, or nothing where it would be infinite. -/
def toFloat? (n : Numeral) : Option Float :=
  (Decimal.ofDigitsAround n.front n.back (n.power.getD 0)).toFloat?.map fun v =>
    if n.negative then -v else v

end Numeral

/-- A document. Members of an object are kept in the order in which they were written. -/
inductive Json
  | null
  | bool (value : Bool)
  | number (value : Numeral)
  | text (value : String)
  | list (items : List Json)
  | object (members : List (String × Json))

end Downhill
