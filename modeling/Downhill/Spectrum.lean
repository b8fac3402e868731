import Downhill.Square

namespace Downhill

namespace Rotation

variable {α : Type} [Scalar α] {n : Nat}

/-- The tangent of the smaller angle that clears the entry in row `p` and column `q`. -/
def tangent (A : Square α n) (p q : Fin n) : α :=
  let ratio := (A q q - A p p) / (2.0 * A p q)
  if Scalar.IsZero ratio then 1
  else Scalar.signum ratio / (Scalar.abs ratio + Scalar.sqrt (ratio * ratio + 1))

/-- Columns `p` and `q` turned into each other. -/
def turnColumns (A : Square α n) (p q : Fin n) (c s : α) : Square α n :=
  .ofFn fun i j =>
    if j = p then c * A i p - s * A i q
    else if j = q then s * A i p + c * A i q
    else A i j

/-- Rows `p` and `q` turned into each other. -/
def turnRows (A : Square α n) (p q : Fin n) (c s : α) : Square α n :=
  .ofFn fun i j =>
    if i = p then c * A p j - s * A q j
    else if i = q then s * A p j + c * A q j
    else A i j

/-- The rotation in the plane of `p` and `q` that clears their common entry, applied from both
sides. -/
def rotate (A : Square α n) (p q : Fin n) : Square α n :=
  let t := tangent A p q
  let c := 1 / Scalar.sqrt (t * t + 1)
  let s := t * c
  turnRows (turnColumns A p q c s) p q c s

/-- A rotation, left out where the entry is already negligible. -/
def clear (A : Square α n) (place : Fin n × Fin n) : Square α n :=
  if Scalar.abs (A place.1 place.2) ≤ Scalar.smallestNormal then A else rotate A place.1 place.2

/-- One rotation for every position above the diagonal. -/
def sweep (A : Square α n) : Square α n :=
  (Square.above n).foldl clear A

end Rotation

/-- What the sweeps end with: the diagonal, and whether the rest had become negligible. -/
structure Spectrum (α : Type) where
  values : Coords α
  settled : Bool

namespace Spectrum

variable {α : Type} [Scalar α] {n : Nat}

/-- The number of sweeps that are made at most. -/
def maxSweeps : Nat :=
  100

/-- What is left above the diagonal, as a length. -/
def offDiagonal (A : Square α n) : α :=
  Scalar.sqrt (Scalar.total ((Square.above n).map fun place => A place.1 place.2 * A place.1 place.2))

/-- The size of all entries together, kept away from zero. -/
def magnitude (A : Square α n) : α :=
  Scalar.atLeast Scalar.smallestNormal
    (Scalar.sqrt (Scalar.total ((List.finRange n).flatMap fun i =>
      (List.finRange n).map fun j => A i j * A i j)))

/-- Sweeps until what is above the diagonal is within the bound, at most `sweeps` of them. The flag
says whether the bound was met. -/
def diagonalize (bound : α) : Nat → Square α n → Square α n × Bool
  | 0, A => (A, false)
  | sweeps + 1, A =>
    if offDiagonal A ≤ bound then (A, true) else diagonalize bound sweeps (Rotation.sweep A)

/-- The spectrum of a symmetric square, its values in the order of the diagonal. -/
def ofSquare (A : Square α n) : Spectrum α :=
  let last := diagonalize (1e-14 * magnitude A) maxSweeps A
  ⟨last.1.diagonal, last.2⟩

/-- The smallest of the values that are ordered at all. -/
def least (spectrum : Spectrum α) : Option α :=
  spectrum.values.toList.foldl
    (fun best v =>
      match best with
      | none => if v ≤ v then some v else none
      | some low => some (Scalar.lesser low v))
    none

end Spectrum

/-- The spectrum of the mean of a table and its transpose. -/
def Table.spectrum {α : Type} [Scalar α] (A : Table α) : Checked (Spectrum α) := do
  let mean ← A.symmetrize
  if square : mean.width = mean.height then return .ofSquare (mean.toSquare square)
  else throw (.sizes mean.height mean.width)

end Downhill
