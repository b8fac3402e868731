import Downhill.Table

namespace Downhill

/-- A stored table with `n` rows and `n` columns. -/
structure Square (α : Type) (n : Nat) where
  cells : Vector (Vector α n) n

namespace Square

variable {α : Type} {n : Nat}

/-- Reading a stored sequence at a position of its type is reading it at the position's number. -/
@[simp]
theorem get_eq_getElem (v : Vector α n) (i : Fin n) : v.get i = v[i.val] :=
  rfl

/-- The entry in row `i` and column `j`. -/
def entry (A : Square α n) (i j : Fin n) : α :=
  (A.cells.get i).get j

instance : CoeFun (Square α n) fun _ => Fin n → Fin n → α :=
  ⟨Square.entry⟩

/-- The square with a rule for its entries. -/
def ofFn (f : Fin n → Fin n → α) : Square α n :=
  ⟨Vector.ofFn fun i => Vector.ofFn (f i)⟩

@[simp]
theorem entry_ofFn (f : Fin n → Fin n → α) (i j : Fin n) : ofFn f i j = f i j := by
  simp [Square.entry, ofFn]

@[ext]
theorem ext {A B : Square α n} (same : ∀ i j, A i j = B i j) : A = B := by
  obtain ⟨A⟩ := A
  obtain ⟨B⟩ := B
  congr
  refine Vector.ext fun i hi => Vector.ext fun j hj => ?_
  simpa [Square.entry] using same ⟨i, hi⟩ ⟨j, hj⟩

/-- The positions in front of `i`, in increasing order. -/
def before (i : Fin n) : List (Fin n) :=
  (List.finRange n).filter (· < i)

/-- The positions behind `i`, in increasing order. -/
def after (i : Fin n) : List (Fin n) :=
  (List.finRange n).filter (i < ·)

/-- The positions above the diagonal, row by row. -/
def above (n : Nat) : List (Fin n × Fin n) :=
  (List.finRange n).flatMap fun i => (after i).map (i, ·)

/-- Values settled one position after another, each by a rule that may read those before it. -/
def settle [Zero α] (order : List (Fin n)) (rule : Vector α n → Fin n → α) : Vector α n :=
  order.foldl (fun x (i : Fin n) => x.set i.val (rule x i) i.isLt) (Vector.replicate n 0)

def diagonal (A : Square α n) : Coords α :=
  Coords.ofFn fun i => A i i

end Square

namespace Table

variable {α : Type}

/-- A table with as many columns as rows, its side moved into the type. -/
def toSquare (A : Table α) (square : A.width = A.height) : Square α A.height :=
  Square.ofFn fun i j => A.entry i (j.cast square.symm)

end Table

end Downhill
