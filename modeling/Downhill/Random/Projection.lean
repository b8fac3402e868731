import Downhill.Table

namespace Downhill.Projection

variable {α σ : Type}

/-- So many samples, in the order in which they are drawn, and the source behind them. -/
def samples (next : σ → α × σ) (n : Nat) (source : σ) : Array α × σ :=
  n.fold (fun _ _ drawn =>
    let (v, rest) := next drawn.2
    (drawn.1.push v, rest)) (#[], source)

@[simp]
theorem size_samples (next : σ → α × σ) (n : Nat) (source : σ) :
    (samples next n source).1.size = n := by
  induction n with
  | zero => rfl
  | succ n ih => simpa [samples] using ih

/-- A row and a column of a table, as a place in its rows one after another. -/
theorem place_lt {m n i j : Nat} (row : i < m) (column : j < n) : i * n + j < m * n :=
  calc
    i * n + j < i * n + n := Nat.add_lt_add_left column _
    _ = (i + 1) * n := (Nat.succ_mul i n).symm
    _ ≤ m * n := Nat.mul_le_mul_right n row

/-- A random table of the given shape. -/
def random [Scalar α] (next : σ → α × σ) (m n : Nat) (source : σ) : Table α × σ :=
  let drawn := samples next (m * n) source
  let entry (i : Fin m) (j : Fin n) : α :=
    have : i.val * n + j.val < drawn.1.size := by
      simpa only [drawn, size_samples] using place_lt i.isLt j.isLt
    drawn.1[i.val * n + j.val] / ((n : Nat) : α)
  (Table.ofFn m n entry, drawn.2)

end Downhill.Projection
