import Downhill.Scalar
import Downhill.Shape

namespace Downhill

/-- A finite sequence of coordinates, whose number is known only when a program runs. -/
@[ext]
structure Coords (α : Type) where
  entries : Array α
  deriving DecidableEq, Repr

namespace Coords

variable {α β : Type}

def size (x : Coords α) : Nat :=
  x.entries.size

/-- The entry at a place of the sequence. -/
def get (x : Coords α) (i : Nat) (inside : i < x.size) : α :=
  have : i < x.entries.size := inside
  x.entries[i]

instance : GetElem (Coords α) Nat α fun x i => i < x.size where
  getElem := get

/-- The entry at a position of the sequence. -/
def entry (x : Coords α) (i : Fin x.size) : α :=
  x.get i i.isLt

def toList (x : Coords α) : List α :=
  x.entries.toList

def ofList (xs : List α) : Coords α :=
  ⟨xs.toArray⟩

/-- The sequence of the given size with a rule for its entries. -/
def ofFn {n : Nat} (f : Fin n → α) : Coords α :=
  ⟨Array.ofFn f⟩

/-- The sequence with one value in every place. -/
def constant (n : Nat) (v : α) : Coords α :=
  ⟨Array.replicate n v⟩

def map (f : α → β) (x : Coords α) : Coords β :=
  ⟨x.entries.map f⟩

/-- One sequence after another. -/
def append (x y : Coords α) : Coords α :=
  ⟨x.entries ++ y.entries⟩

/-- The first `n` entries. -/
def take (x : Coords α) (n : Nat) : Coords α :=
  ⟨x.entries.take n⟩

/-- All but the first `n` entries. -/
def drop (x : Coords α) (n : Nat) : Coords α :=
  ⟨x.entries.drop n⟩

/-- Entry by entry combination of two sequences of one size. -/
def combine (f : α → α → α) (x y : Coords α) : Checked (Coords α) :=
  if x.size = y.size then .ok ⟨Array.zipWith f x.entries y.entries⟩
  else .error (.sizes x.size y.size)

@[simp]
theorem size_ofFn {n : Nat} (f : Fin n → α) : (ofFn f).size = n :=
  Array.size_ofFn

@[simp]
theorem size_constant (n : Nat) (v : α) : (constant n v).size = n :=
  Array.size_replicate

@[simp]
theorem size_map (f : α → β) (x : Coords α) : (x.map f).size = x.size :=
  Array.size_map

@[simp]
theorem getElem_ofFn {n : Nat} (f : Fin n → α) (i : Nat) (h : i < (ofFn f).size) :
    (ofFn f)[i] = f ⟨i, by simpa using h⟩ :=
  Array.getElem_ofFn _

/-- A combination exists exactly when the sizes agree, and then has that size. -/
theorem combine_eq_ok_iff {f : α → α → α} {x y z : Coords α} :
    combine f x y = .ok z ↔ x.size = y.size ∧ z = ⟨Array.zipWith f x.entries y.entries⟩ := by
  unfold combine
  split
  · rename_i same
    simp [same, eq_comm]
  · rename_i differ
    simp [differ]

variable [Scalar α]

def zeros (n : Nat) : Coords α :=
  constant n 0

def neg (x : Coords α) : Coords α :=
  x.map (- ·)

/-- Every coordinate times the factor. -/
def scale (x : Coords α) (t : α) : Coords α :=
  x.map (· * t)

def add (x y : Coords α) : Checked (Coords α) :=
  combine (· + ·) x y

def sub (x y : Coords α) : Checked (Coords α) :=
  combine (· - ·) x y

/-- The point reached from `x` by the step `a` along `d`. -/
def advance (x : Coords α) (a : α) (d : Coords α) : Checked (Coords α) :=
  combine (fun v w => v + a * w) x d

/-- Sum of the products of paired entries, pairs beyond the shorter sequence left out. -/
def pairing (x y : Coords α) : α :=
  Scalar.total (List.zipWith (· * ·) x.toList y.toList)

def dot (x y : Coords α) : Checked α :=
  if x.size = y.size then .ok (x.pairing y) else .error (.sizes x.size y.size)

/-- Euclidean length. -/
def norm (x : Coords α) : α :=
  Scalar.sqrt (x.pairing x)

theorem dot_self (x : Coords α) : x.dot x = .ok (x.pairing x) :=
  if_pos rfl

end Coords

end Downhill
