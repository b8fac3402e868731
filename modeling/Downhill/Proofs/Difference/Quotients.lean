import Mathlib
import Downhill.Proofs.Difference.Sweep
import Downhill.Proofs.Matrices
import Downhill.Proofs.Outcome

namespace Downhill.Difference

variable {n : Nat} {G : (Fin n → ℝ) → Fin n → ℝ} {gradient : Coords ℝ → Checked (Coords ℝ)}

/-- The gradient that is computed is the given map on the points of a space. -/
def Computes (gradient : Coords ℝ → Checked (Coords ℝ)) (G : (Fin n → ℝ) → Fin n → ℝ) : Prop :=
  ∀ y, y.size = n → gradient y = .ok (.ofFn (G (y.vec n)))

/-- The quotients of the differences of a map, one column for each axis. -/
noncomputable def quotient (G : (Fin n → ℝ) → Fin n → ℝ) (v : Fin n → ℝ) : Matrix (Fin n) (Fin n) ℝ :=
  Matrix.of fun i j => (G (v + Pi.single j (step (v j))) i - G (v + Pi.single j (-step (v j))) i) /
  (2.0 * step (v j))

theorem quotients_ofFn {β : Type} (items : List β) (h : β → ℝ) (ahead behind : β → Fin n → ℝ) :
    quotients (items.map h) (items.flatMap fun b => [Coords.ofFn (ahead b), Coords.ofFn (behind b)]) =
      .ok (items.map fun b => Coords.ofFn fun i => (ahead b i - behind b i) / (2.0 * h b)) := by
  induction items with
  | nil => rfl
  | cons b items ih =>
    have divided : (Coords.ofFn fun i => ahead b i - behind b i).map (· / (2.0 * h b)) =
        Coords.ofFn fun i => (ahead b i - behind b i) / (2.0 * h b) :=
      congrArg Coords.mk (Array.map_ofFn ..)
    simp only [List.map_cons, List.flatMap_cons, List.cons_append, List.nil_append, quotients, Coords.sub_ofFn,
      ih, divided, bind, Except.bind, pure, Except.pure]

theorem map_step {x : Coords ℝ} (size : x.size = n) :
    x.toList.map step = (List.finRange n).map fun j => step (x.vec n j) := by
  subst size
  refine List.ext_getElem (by simp [Coords.toList, Coords.size]) fun i first second => ?_
  have inside : i < x.size := by simpa using second
  simp only [List.getElem_map, List.getElem_finRange]
  exact congrArg step (Coords.entry_eq_vec x ⟨i, inside⟩)

/-- The quotients are the columns of a table, which is then made symmetric. -/
theorem assemble_ok {x : Coords ℝ} (size : x.size = n) (ahead behind : Fin n → Fin n → ℝ) :
    let quotient : Matrix (Fin n) (Fin n) ℝ :=
      Matrix.of fun i j => (ahead j i - behind j i) / (2.0 * step (x.vec n j))
    ∃ H, assemble x ((List.finRange n).flatMap fun j => [.ofFn (ahead j), .ofFn (behind j)]) = .ok H ∧
    H.height = n ∧
      H.width = n ∧ H.mat n n = (0.5 : ℝ) • (quotient + quotient.transpose) := by
  intro quotient
  let stacked : Table ℝ := .ofFn n n fun j i => quotient i j
  have high : stacked.height = n := Table.height_ofFn _ _ _
  have wide : stacked.width = n := rfl
  have turned : stacked.transpose.mat n n = quotient := by
    rw [Table.mat_transpose high wide, Table.mat_ofFn]
    rfl
  obtain ⟨H, made, tall, across, mean⟩ := Table.symmetrize_ok (stacked.height_transpose.trans wide)
    ((Table.width_ofFn _ _ _).trans high)
  refine ⟨H, ?_, tall, across, by rw [mean, turned]⟩
  rw [assemble, map_step size, quotients_ofFn, size]
  exact Outcome.bind_eq_ok.mpr ⟨_, rfl, Outcome.bind_eq_ok.mpr ⟨stacked, Table.ofRows_ofFn _, made⟩⟩

theorem size_of_mem_probes {x p : Coords ℝ} (member : p ∈ probes x) : p.size = x.size := by
  obtain ⟨j, _, near⟩ := List.mem_flatMap.mp (probes_eq x ▸ member)
  rcases List.mem_pair.mp near with rfl | rfl <;> exact size_probe _ _ _

/-- Where the gradient is that of a map, the Hessian is there, and it is the mean of the quotients and their
transpose. -/
theorem Computes.hessian_ok (computes : Computes gradient G) {x : Coords ℝ} (size : x.size = n) :
    ∃ H, hessian gradient x = .ok H ∧ H.height = n ∧ H.width = n ∧
      H.mat n n = (0.5 : ℝ) • (quotient G (x.vec n) + (quotient G (x.vec n)).transpose) := by
  subst size
  have asked : (probes x).mapM gradient = .ok ((List.finRange x.size).flatMap fun j =>
      [.ofFn (G (x.vec x.size + Pi.single j (step (x.vec x.size j)))),
        .ofFn (G (x.vec x.size + Pi.single j (-step (x.vec x.size j))))]) := by
    rw [Outcome.mapM_eq_ok fun p member => computes p (size_of_mem_probes member), probes_eq, List.map_flatMap]
    simp only [around, sub_eq_add_neg, List.map_cons, List.map_nil, vec_probe]
    simp only [Coords.entry_eq_vec]
  rw [hessian, asked]
  exact assemble_ok rfl _ _

/-- A Hessian from differences is square, with a row for each coordinate, and symmetric, whatever the gradient. -/
theorem isSymm_of_hessian {x : Coords ℝ} {H : Table ℝ} (made : hessian gradient x = .ok H) (size : x.size = n) :
    H.height = n ∧ H.width = n ∧ (H.mat n n).IsSymm := by
  subst size
  obtain ⟨gradients, _, assembled⟩ := Outcome.bind_eq_ok.mp made
  obtain ⟨columns, _, rest⟩ := Outcome.bind_eq_ok.mp assembled
  obtain ⟨stacked, rows, mean⟩ := Outcome.bind_eq_ok.mp rest
  have high : stacked.transpose.height = x.size := stacked.height_transpose.trans (Table.ofRows_eq_ok.mp rows).1
  obtain ⟨_, tall, wide, symmetric⟩ := Table.symmetrize_eq_ok mean
  rw [high] at tall wide symmetric
  exact ⟨tall, wide, symmetric⟩

end Downhill.Difference
