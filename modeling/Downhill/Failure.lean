import Downhill.Setting

namespace Downhill

/-- Why the value of a setting is refused. -/
inductive Reason (α : Type)
  | notPositive (value : α)
  | outsideUnitInterval (value : α)
  | zero
  | oddRows (rows : UInt64)
  | exceedsDimension (dim value : UInt64)
  | noConstraint
  /-- A value of the wrong kind, absent where a number was not finite. -/
  | wrongKind (found : Option (Setting α)) (wanted : Kind)
  | negative (value : Int64)
  | unknownWord (word : String) (words : List String)
  deriving DecidableEq, Repr

/-- Why a method does not answer. -/
inductive Failure (α : Type)
  | settingCount (algorithm : String) (expected found : Nat)
  | missingSetting (algorithm name : String)
  | refusedSetting (name : String) (reason : Reason α)
  | singularSystem (system : String)
  | sizeMismatch (expected found : Nat)
  | infeasibleStart
  /-- The record of a run cannot be stored. -/
  | unstorable
  /-- The record of a run cannot be written as text, or a text is no record. -/
  | unreadable
  deriving DecidableEq, Repr

end Downhill
