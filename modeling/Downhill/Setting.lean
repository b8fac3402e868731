import Downhill.Named
import Downhill.Scalar

namespace Downhill

/-- The value of a setting. -/
inductive Setting (α : Type)
  | switch (on : Bool)
  | integer (value : Int64)
  | number (value : α)
  | word (value : String)
  deriving DecidableEq, Repr

/-- Settings by name. -/
abbrev Settings (α : Type) :=
  Named (Setting α)

/-- What a field of a configuration holds. -/
inductive Kind
  | real
  | count
  | switch
  /-- One of some words. -/
  | choice (words : List String)
  deriving DecidableEq, Repr

/-- A named field of a configuration. -/
structure Field where
  name : String
  kind : Kind
  deriving DecidableEq, Repr

namespace Kind

/-- The words of a choice. -/
def words : Kind → List String
  | choice words => words
  | _ => []

/-- The values of a field. -/
def Value (α : Type) : Kind → Type
  | real => α
  | count => UInt64
  | switch => Bool
  | choice words => Fin words.length

end Kind

/-- The values of some fields, in the order of the fields. -/
def Row (α : Type) : List Field → Type
  | [] => Unit
  | f :: fs => f.kind.Value α × Row α fs

end Downhill
