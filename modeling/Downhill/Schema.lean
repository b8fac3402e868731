import Downhill.Failure

namespace Downhill

variable {α : Type}

/-- Exactly the given names, however many they are and in whatever order: the number is compared
first, then the first name without a setting is reported. -/
def Named.checkNames {β : Type} (c : Named β) (algorithm : String) (names : List String) :
    Except (Failure α) Unit :=
  if c.size ≠ names.length then .error (.settingCount algorithm names.length c.size)
  else
    match names.find? fun name => !c.contains name with
    | some name => .error (.missingSetting algorithm name)
    | none => .ok ()

namespace Kind

/-- The name of the word at a position of the choice. -/
def wordAt (words : List String) (i : Fin words.length) : String :=
  words[i]

variable [Scalar α]

/-- A setting as it is read: a number that is not finite is absent. -/
def present : Setting α → Option (Setting α)
  | .number v => if Scalar.isFinite v then some (.number v) else none
  | s => some s

/-- The value of a field in a setting. Whole numbers are numbers, not the other way round. -/
def read (kind : Kind) (found : Option (Setting α)) : Except (Reason α) (kind.Value α) :=
  match kind, found with
  | .real, some (.integer i) => .ok ((i.toInt : Int) : α)
  | .real, some (.number v) => .ok v
  | .count, some (.integer i) => if i < 0 then .error (.negative i) else .ok i.toUInt64
  | .switch, some (.switch on) => .ok on
  | .choice words, some (.word w) =>
    match words.finIdxOf? w with
    | some i => .ok i
    | none => .error (.unknownWord w words)
  | kind, found => .error (.wrongKind found kind)

/-- The setting of a field. A number has one only if it is finite; a count too large for a whole
number is a number. -/
def write : (kind : Kind) → kind.Value α → Option (Setting α)
  | .real, v => present (.number v)
  | .count, n =>
    if (n.toNat : Int) ≤ Int64.maxValue.toInt then some (.integer n.toInt64)
    else some (.number ((n.toNat : Nat) : α))
  | .switch, on => some (.switch on)
  | .choice words, i => some (.word (wordAt words i))

end Kind

namespace Row

variable [Scalar α]

/-- The values of the fields in some settings. -/
def read (settings : Settings α) : (fields : List Field) → Except (Reason α) (Row α fields)
  | [] => .ok ()
  | f :: fs => do
    let v ← f.kind.read ((settings.find? f.name).bind Kind.present)
    let rest ← read settings fs
    return (v, rest)

/-- The settings of the fields. -/
def write : (fields : List Field) → Row α fields → Option (List (String × Setting α))
  | [], _ => some []
  | f :: fs, (v, rest) => do
    let s ← f.kind.write v
    let others ← write fs rest
    return (f.name, s) :: others

/-- What is wrong with the first setting, in the order of the names, that its field refuses. -/
def firstRefusal (fields : List Field) (settings : Settings α) : Option (Reason α) :=
  settings.entries.findSome? fun (name, s) =>
    (fields.find? (·.name = name)).bind fun f =>
      match f.kind.read (Kind.present s) with
      | .ok _ => none
      | .error reason => some reason

end Row

/-- The fields of a configuration of type `C`, and the ranges of their values. -/
structure Schema (α : Type) (C : Type) where
  algorithm : String
  fields : List Field
  toRow : C → Row α fields
  ofRow : Row α fields → C
  /-- The first range that a value is outside of. -/
  validate : C → Except (Failure α) Unit
  ofRow_toRow : ∀ c, ofRow (toRow c) = c := by intro c; rfl
  toRow_ofRow : ∀ r, toRow (ofRow r) = r := by intro r; rfl
  /-- No two fields have one name … -/
  distinct_names : (fields.map Field.name).Nodup := by decide
  /-- … and the words of a choice are different. -/
  distinct_words : ∀ f ∈ fields, f.kind.words.Nodup := by decide

namespace Schema

variable {C : Type} [Scalar α]

def names (schema : Schema α C) : List String :=
  schema.fields.map Field.name

/-- The values of the fields in settings that have their names. -/
def decode (schema : Schema α C) (settings : Settings α) : Except (Failure α) C :=
  match Row.firstRefusal schema.fields settings, Row.read settings schema.fields with
  | some reason, _ => .error (.refusedSetting schema.algorithm reason)
  | none, .ok row => .ok (schema.ofRow row)
  | none, .error reason => .error (.refusedSetting schema.algorithm reason)

/-- The configuration that settings describe: first their names are checked, then the kinds of their
values, then the ranges. -/
def ofSettings (schema : Schema α C) (settings : Settings α) : Except (Failure α) C := do
  settings.checkNames schema.algorithm schema.names
  let c ← schema.decode settings
  schema.validate c
  return c

/-- The settings of a configuration, if all its numbers are finite. -/
def toSettings (schema : Schema α C) (c : C) : Except (Failure α) (Settings α) :=
  match Row.write schema.fields (schema.toRow c) with
  | some entries => .ok (Named.ofList entries)
  | none => .error .unreadable

end Schema

section Ranges

variable [Scalar α]

def requirePositive (name : String) (v : α) : Except (Failure α) Unit :=
  if Scalar.isFinite v = true ∧ 0 < v then .ok () else .error (.refusedSetting name (.notPositive v))

/-- Strictly between zero and one. -/
def requireFraction (name : String) (v : α) : Except (Failure α) Unit :=
  if 0 < v ∧ v < 1 then .ok () else .error (.refusedSetting name (.outsideUnitInterval v))

def requireNonzero (name : String) (n : UInt64) : Except (Failure α) Unit :=
  if 0 < n then .ok () else .error (.refusedSetting name .zero)

end Ranges

end Downhill
