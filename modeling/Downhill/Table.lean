import Downhill.Coords

namespace Downhill

/-- Rows of one width. -/
@[ext]
structure Table (α : Type) where
  width : Nat
  rows : Array (Coords α)
  row_size : ∀ r ∈ rows, r.size = width

namespace Table

variable {α : Type}

def height (A : Table α) : Nat :=
  A.rows.size

/-- The row at a position of the table. -/
def row (A : Table α) (i : Fin A.height) : Coords α :=
  have : i < A.rows.size := i.isLt
  A.rows[i]

theorem size_row (A : Table α) (i : Fin A.height) : (A.row i).size = A.width :=
  A.row_size _ (Array.getElem_mem _)

/-- The entry in row `i` and column `j`. -/
def entry (A : Table α) (i : Fin A.height) (j : Fin A.width) : α :=
  (A.row i).get j (by simpa only [A.size_row i] using j.isLt)

/-- The table of the given shape with a rule for its entries. -/
def ofFn (m n : Nat) (f : Fin m → Fin n → α) : Table α where
  width := n
  rows := Array.ofFn fun i => Coords.ofFn (f i)
  row_size := by
    intro r member
    obtain ⟨i, rfl⟩ := Array.mem_ofFn.mp member
    exact Coords.size_ofFn _

@[simp]
theorem width_ofFn (m n : Nat) (f : Fin m → Fin n → α) : (ofFn m n f).width = n :=
  rfl

@[simp]
theorem height_ofFn (m n : Nat) (f : Fin m → Fin n → α) : (ofFn m n f).height = m :=
  Array.size_ofFn

/-- Rows of one width as a table; a row of another width is a fault. -/
def ofRows (width : Nat) (rows : Array (Coords α)) : Checked (Table α) :=
  if fits : ∀ r ∈ rows, r.size = width then .ok ⟨width, rows, fits⟩
  else .error (.sizes width ((rows.find? (·.size ≠ width)).elim 0 Coords.size))

/-- Two rows of one width, the first above the second. -/
def pair (upper lower : Coords α) (same : lower.size = upper.size) : Table α where
  width := upper.size
  rows := #[upper, lower]
  row_size := by simpa using same

/-- One table above another of the same width. -/
def stack (upper lower : Table α) (same : lower.width = upper.width) : Table α where
  width := upper.width
  rows := upper.rows ++ lower.rows
  row_size := by
    intro r member
    rcases Array.mem_append.mp member with up | low
    · exact upper.row_size r up
    · exact (lower.row_size r low).trans same

/-- The table without its first `n` rows. -/
def dropRows (A : Table α) (n : Nat) : Table α where
  width := A.width
  rows := A.rows.drop n
  row_size := by
    intro r member
    rw [Array.drop_eq_extract, ← Array.mem_toList_iff, Array.toList_extract] at member
    exact A.row_size r (Array.mem_toList_iff.mp (List.mem_of_mem_drop (List.mem_of_mem_take member)))

/-- The rows at the given positions, in the order of the positions. -/
def select (A : Table α) (positions : List (Fin A.height)) : Table α where
  width := A.width
  rows := (positions.map A.row).toArray
  row_size := by
    intro r member
    obtain ⟨i, _, rfl⟩ := List.mem_map.mp (List.mem_toArray.mp member)
    exact A.size_row i

/-- The rows at positions that need not be those of the table. One beyond it is a fault, unless there
is no column to read there. -/
def selectAt (A : Table α) (positions : List Nat) : Checked (Table α) :=
  if inside : ∀ i ∈ positions, i < A.height then .ok (A.select (positions.pmap Fin.mk inside))
  else if A.width = 0 then .ok (ofFn positions.length 0 fun _ j => j.elim0)
  else .error (.position ((positions.find? (A.height ≤ ·)).getD 0) A.height)

def transpose (A : Table α) : Table α :=
  ofFn A.width A.height fun j i => A.entry i j

variable [Scalar α]

def zeros (m n : Nat) : Table α :=
  ofFn m n fun _ _ => 0

def identity (n : Nat) : Table α :=
  ofFn n n fun i j => if i = j then 1 else 0

/-- Entry by entry combination of two tables of one shape. -/
def combine (f : α → α → α) (A B : Table α) : Checked (Table α) :=
  if high : B.height = A.height then
    if wide : B.width = A.width then
      .ok (ofFn A.height A.width fun i j => f (A.entry i j) (B.entry (i.cast high.symm) (j.cast wide.symm)))
    else .error (.sizes A.width B.width)
  else .error (.sizes A.height B.height)

def add (A B : Table α) : Checked (Table α) :=
  combine (· + ·) A B

/-- Every entry times the factor. -/
def scale (A : Table α) (t : α) : Table α :=
  ofFn A.height A.width fun i j => A.entry i j * t

/-- The table times a column: the product of each row with it. -/
def apply (A : Table α) (x : Coords α) : Checked (Coords α) :=
  if A.width = x.size then .ok ⟨A.rows.map (·.pairing x)⟩ else .error (.sizes A.width x.size)

/-- The transposed table times a column: the combination of the rows with the given weights. -/
def combineRows (A : Table α) (weights : Coords α) : Checked (Coords α) :=
  A.transpose.apply weights

def mul (A B : Table α) : Checked (Table α) :=
  if fits : A.width = B.height then
    .ok (ofFn A.height B.width fun i j =>
      Scalar.total ((List.finRange A.width).map fun k => A.entry i k * B.entry (k.cast fits) j))
  else .error (.sizes A.width B.height)

/-- The mean of a square table and its transpose. -/
def symmetrize (A : Table α) : Checked (Table α) := do
  let double ← A.add A.transpose
  return double.scale 0.5

end Table

end Downhill
