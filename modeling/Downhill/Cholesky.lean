import Downhill.Square

namespace Downhill

/-- The lower triangular factor. -/
structure Cholesky (α : Type) (n : Nat) where
  lower : Square α n

namespace Cholesky

variable {α : Type} [Scalar α] {n : Nat}

/-- What the columns in front of `j` already contribute to the entry in row `i` and column `j`. -/
def overlap (L : Square α n) (i j : Fin n) : α :=
  Scalar.total ((Square.before j).map fun k => L i k * L j k)

/-- The next column of the factor, refused unless its pivot is finite and positive. -/
def step (A : Square α n) (L : Square α n) (j : Fin n) : Option (Square α n) :=
  let pivot := A j j - overlap L j j
  if Scalar.isFinite pivot = true ∧ 0 < pivot then
    let root := Scalar.sqrt pivot
    some (.ofFn fun i k =>
      if k = j then
        if i = j then root
        else if j < i then (A i j - overlap L i j) / root
        else L i k
      else L i k)
  else none

/-- The lower triangle whose product with its transpose is the square, of which only the lower triangle is
read. There is none where a pivot is not positive. -/
def factor (A : Square α n) : Option (Cholesky α n) :=
  ((List.finRange n).foldlM (step A) (.ofFn fun _ _ => 0)).map Cholesky.mk

/-- The lower factor solved from the top. -/
def forward (C : Cholesky α n) (b : Fin n → α) : Vector α n :=
  Square.settle (List.finRange n) fun y i =>
    (b i - Scalar.total ((Square.before i).map fun k => C.lower i k * y.get k)) / C.lower i i

/-- The transposed factor solved from the bottom. -/
def backward (C : Cholesky α n) (y : Vector α n) : Vector α n :=
  Square.settle (List.finRange n).reverse fun x i =>
    (y.get i - Scalar.total ((Square.after i).map fun k => C.lower k i * x.get k)) / C.lower i i

def solution (C : Cholesky α n) (b : Fin n → α) : Vector α n :=
  C.backward (C.forward b)

/-- The solution for a right side of the size of the system. A system without unknowns leaves the
right side as it is. -/
def solve (C : Cholesky α n) (b : Coords α) : Checked (Coords α) :=
  if n = 0 then .ok b
  else if same : b.size = n then
    .ok ⟨(C.solution fun i => b.get i (by omega)).toArray⟩
  else .error (.sizes n b.size)

end Cholesky

/-- The factor of a table; there is none unless the table is square. -/
def Table.cholesky {α : Type} [Scalar α] (A : Table α) : Option (Cholesky α A.height) :=
  if square : A.width = A.height then Cholesky.factor (A.toSquare square) else none

end Downhill
