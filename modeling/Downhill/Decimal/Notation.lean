import Downhill.Decimal.Shortest

namespace Downhill

/-- The decisions of a way to write numbers. -/
structure NumberStyle where
  /-- Exponents of the leading digit from this one on are written positionally … -/
  positionalFrom : Option Int
  /-- … up to, and without, this one. -/
  positionalBelow : Option Int
  /-- What follows the digits of a whole number in positional notation. -/
  wholeEnding : String
  /-- The sign in front of an exponent that is not negative. -/
  exponentSign : String
  undefined : String
  /-- An infinite value, told whether it is negative. -/
  infinite : Bool → String
  /-- Of two shortest decimals equally near, the one to write. -/
  tie : Tie

namespace NumberStyle

/-- Stored numbers: a whole number keeps a zero behind its point, exponents below minus five and
from sixteen on are written out and signed, a value that is no number is absent, and a tie goes to the
even digit. -/
def stored : NumberStyle where
  positionalFrom := some (-5)
  positionalBelow := some 16
  wholeEnding := ".0"
  exponentSign := "+"
  undefined := "null"
  infinite := fun _ => "null"
  tie := .even

/-- Numbers in messages: never an exponent, no point in a whole number, and a tie goes up. -/
def spoken : NumberStyle where
  positionalFrom := none
  positionalBelow := none
  wholeEnding := ""
  exponentSign := ""
  undefined := "NaN"
  infinite := fun negative => if negative then "-inf" else "inf"
  tie := .upper

/-- Whether a number with this leading exponent is written without an exponent. -/
def positional (style : NumberStyle) (leading : Int) : Bool :=
  style.positionalFrom.all (· ≤ leading) && style.positionalBelow.all (leading < ·)

end NumberStyle

namespace Decimal

/-- The digits of a number, most significant first. -/
def digits (n : Nat) : List Char :=
  Nat.toDigits 10 n

/-- A run of zeros. -/
def zeros (n : Nat) : List Char :=
  List.replicate n '0'

/-- One digit, then a point and the others unless there are none. -/
def mantissaText (ds : List Char) : String :=
  match ds with
  | [] => ""
  | [d] => String.ofList [d]
  | d :: rest => String.ofList (d :: '.' :: rest)

/-- An exponent with its sign, `positive` in front of one that is not negative. -/
def exponentText (positive : String) (e : Int) : String :=
  match e with
  | .ofNat k => positive ++ String.ofList (digits k)
  | .negSucc k => "-" ++ String.ofList (digits (k + 1))

/-- A decimal without an exponent; `whole` ends one without fractional digits. -/
def positionalText (whole : String) (d : Decimal) : String :=
  match d.exponent with
  | .ofNat k => String.ofList (digits d.coefficient ++ zeros k) ++ whole
  | .negSucc k =>
    let places := k + 1
    let ds := digits d.coefficient
    let padded := zeros (places + 1 - ds.length) ++ ds
    let split := padded.length - places
    String.ofList (padded.take split ++ '.' :: padded.drop split)

/-- A positive decimal in a style. -/
def text (style : NumberStyle) (d : Decimal) : String :=
  if style.positional d.leading then d.positionalText style.wholeEnding
  else mantissaText (digits d.coefficient) ++ "e" ++ exponentText style.exponentSign d.leading

end Decimal

namespace Double

/-- The minus of a negative value. -/
def signText (negative : Bool) : String :=
  if negative then "-" else ""

/-- A double in a style, with the fewest digits that read back. -/
def text (style : NumberStyle) : Double → String
  | .undefined => style.undefined
  | .infinite negative => style.infinite negative
  | .finite negative 0 _ => signText negative ++ "0" ++ style.wholeEnding
  | .finite negative m e => signText negative ++ (Decimal.shortest style.tie m e).text style

/-- A double with one digit in front of the point, so many behind it, and an exponent; the exact
value is rounded, ties going to the even digit. -/
def scientific (places : Nat) : Double → String
  | .undefined => NumberStyle.spoken.undefined
  | .infinite negative => NumberStyle.spoken.infinite negative
  | .finite negative 0 _ =>
    signText negative ++ Decimal.mantissaText (Decimal.zeros (places + 1)) ++ "e0"
  | .finite negative m e =>
    let d := Decimal.ofDigits (Ratio.scaled m 2 e) (places + 1) .even
    signText negative ++ Decimal.mantissaText ((Decimal.digits d.coefficient).take (places + 1)) ++ "e" ++
      Decimal.exponentText "" d.leading

end Double

end Downhill
