import Downhill.Square

namespace Downhill

/-- A half or fully eliminated square: multipliers below the diagonal, pivots and the rest on and
above it, and for each row its place in the square that was factored. -/
structure Elimination (α : Type) (n : Nat) where
  cells : Square α n
  order : Vector (Fin n) n

namespace Elimination

variable {α : Type} [Scalar α] {n : Nat}

/-- Pivots below this size count as zero. -/
def pivotFloor : α :=
  1e-12

/-- The row, from the diagonal downwards, whose entry in the column is largest; the first of them. -/
def pivotRow (A : Square α n) (column : Fin n) : Fin n :=
  (Square.after column).foldl
    (fun best i => if Scalar.abs (A best column) < Scalar.abs (A i column) then i else best) column

/-- The position that the exchange of `a` and `b` brings to `i`. -/
def exchanged (a b i : Fin n) : Fin n :=
  if i = a then b else if i = b then a else i

def exchangeRows (E : Elimination α n) (a b : Fin n) : Elimination α n where
  cells := .ofFn fun i j => E.cells (exchanged a b i) j
  order := .ofFn fun i => E.order.get (exchanged a b i)

/-- Below the pivot: the multiplier is kept in the column, and that multiple of the pivot row is
taken off the entries behind it. -/
def clearColumn (A : Square α n) (column : Fin n) : Square α n :=
  .ofFn fun i j =>
    if column < i then
      if j < column then A i j
      else if j = column then A i column / A column column
      else A i j - A i column / A column column * A column j
    else A i j

/-- One column of the factorization, refused where the pivot is too small or not finite. -/
def step (E : Elimination α n) (column : Fin n) : Option (Elimination α n) :=
  let row := pivotRow E.cells column
  let size := Scalar.abs (E.cells row column)
  if size < pivotFloor ∨ Scalar.isFinite size = false then none
  else
    let placed := E.exchangeRows column row
    some { placed with cells := clearColumn placed.cells column }

def start (A : Square α n) : Elimination α n where
  cells := A
  order := .ofFn id

/-- All columns from left to right. -/
def factor (A : Square α n) : Option (Elimination α n) :=
  (List.finRange n).foldlM step (start A)

/-- The lower factor, with ones on its diagonal, solved from the top. -/
def forward (E : Elimination α n) (b : Fin n → α) : Vector α n :=
  Square.settle (List.finRange n) fun y i =>
    (Square.before i).foldl (fun rest j => rest - E.cells i j * y.get j) (b (E.order.get i))

/-- The upper factor solved from the bottom. -/
def backward (E : Elimination α n) (y : Vector α n) : Vector α n :=
  Square.settle (List.finRange n).reverse fun x i =>
    (Square.after i).foldl (fun rest j => rest - E.cells i j * x.get j) (y.get i) / E.cells i i

def solution (E : Elimination α n) (b : Fin n → α) : Vector α n :=
  E.backward (E.forward b)

/-- The solution for a right side; entries beyond the size of the system are not read. -/
def solve (E : Elimination α n) (b : Coords α) : Checked (Coords α) :=
  if enough : n ≤ b.size then
    .ok ⟨(E.solution fun i => b.get i (Nat.lt_of_lt_of_le i.isLt enough)).toArray⟩
  else .error (.position b.size b.size)

end Elimination

/-- The elimination of a table; there is none unless the table is square. -/
def Table.eliminate {α : Type} [Scalar α] (A : Table α) : Option (Elimination α A.height) :=
  if square : A.width = A.height then Elimination.factor (A.toSquare square) else none

end Downhill
