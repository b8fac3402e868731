namespace Downhill

/-- Why an operation has no meaning on its operands. Such a fault is not an answer of a method. -/
inductive ShapeFault
  /-- Two operands, or the two sides of a table, should have had one size. -/
  | sizes (left right : Nat)
  /-- A position outside its collection. -/
  | position (index size : Nat)
  deriving DecidableEq, Repr

/-- A result that exists when the operands fit together. -/
abbrev Checked (β : Type) :=
  Except ShapeFault β

end Downhill
