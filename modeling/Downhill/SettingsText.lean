import Downhill.Decimal.Notation
import Downhill.Failure
import Downhill.Json.Reader
import Downhill.Json.Writer

namespace Downhill

namespace Setting

def toText : Setting Float → String
  | .switch on => if on then "true" else "false"
  | .integer i => toString i.toInt
  | .number v => (Double.ofFloat v).text .stored
  | .word w => Json.quote w

/-- The setting that a document is, if it is a switch, a number or a word. Digits alone within the
range of whole numbers are a whole number, every other number is a double. -/
def ofJson? : Json → Option (Setting Float)
  | .bool on => some (.switch on)
  | .text w => some (.word w)
  | .number n =>
    match n.toInt? with
    | some i =>
      if Int64.minValue.toInt ≤ i ∧ i ≤ Int64.maxValue.toInt then some (.integer (Int64.ofInt i))
      else n.toFloat?.map .number
    | none => n.toFloat?.map .number
  | _ => none

end Setting

/-- Whether two settings are equal, numbers as numbers are compared: an undefined one equals none. -/
def Setting.same : Setting Float → Setting Float → Bool
  | .switch a, .switch b => a == b
  | .integer a, .integer b => a == b
  | .number a, .number b => a == b
  | .word a, .word b => a == b
  | _, _ => false

namespace Settings

/-- Whether the same names have the same settings. -/
def same (a b : Settings Float) : Bool :=
  a.names == b.names &&
    (List.zip a.entries b.entries).all fun (e, f) => e.2.same f.2

/-- The settings as an object, a member a line. -/
def toText (settings : Settings Float) : String :=
  Json.prettyObject (settings.entries.map fun e => (e.1, e.2.toText))

/-- The settings in a document, of two members with one name the later. -/
def ofText (text : String) : Except (Failure Float) (Settings Float) :=
  match Json.read text with
  | some (.object members) =>
    match members.mapM fun m => (Setting.ofJson? m.2).map fun s => (m.1, s) with
    | some entries => .ok (Named.ofList entries)
    | none => .error .unreadable
  | _ => .error .unreadable

end Settings

end Downhill
