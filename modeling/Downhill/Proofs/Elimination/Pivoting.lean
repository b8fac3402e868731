import Mathlib
import Downhill.Proofs.Elimination.Solution

namespace Downhill

namespace Elimination

section

variable {α : Type} [Scalar α] {n : Nat}

/-- The elimination of the first `k` columns. -/
def upTo (A : Square α n) (k : Nat) : Option (Elimination α n) :=
  ((List.finRange n).take k).foldlM step (start A)

theorem upTo_succ (A : Square α n) (column : Fin n) :
    upTo A (column + 1) = (do step (← upTo A column) column) := by
  have inside : column.val < (List.finRange n).length := by simp
  rw [upTo, List.take_succ_eq_append_getElem inside, List.foldlM_append, List.getElem_finRange]
  simp [upTo]

/-- What is left of the elimination after the first columns. -/
theorem factor_eq_bind (A : Square α n) (k : Nat) :
    factor A = (do ((List.finRange n).drop k).foldlM step (← upTo A k)) := by
  rw [upTo, ← List.foldlM_append, List.take_append_drop, factor]

end

variable {n : Nat}

/-- A square is not factored where at some column, with those in front of it eliminated, nothing but small
entries are left. -/
theorem factor_eq_none_iff (A : Square ℝ n) :
    factor A = none ↔ ∃ (column : Fin n) (E : Elimination ℝ n), upTo A column = some E ∧
      ∀ i, column ≤ i → |E.cells i column| < pivotFloor := by
  constructor
  · intro refused
    have advance : ∀ (column : Fin n) (E E' : Elimination ℝ n), upTo A column = some E → step E column = some E' →
        upTo A (column + 1) = some E' := by
      intro column E E' reached made
      rw [upTo_succ, reached]
      exact made
    rcases Square.columns_cases (fun k E => upTo A k = some E) advance (b := start A) rfl with
      ⟨E, found, _⟩ | ⟨_, column, E, reached, stopped⟩
    · cases refused.symm.trans found
    · exact ⟨column, E, reached, (step_eq_none_iff E column).mp stopped⟩
  · rintro ⟨column, E, reached, small⟩
    rw [factor_eq_bind A (column + 1), upTo_succ, reached]
    change (step E column >>= _) = none
    rw [(step_eq_none_iff E column).mpr small]
    rfl

end Elimination

/-- An elimination gives an order of the rows and two triangles that multiply to the rows in that order, with
no multiplier above one and no pivot below the floor. A square has none exactly where it comes to a column in
which every entry that could be the pivot is below the floor. -/
theorem Table.eliminate_pivoted (A : Table ℝ) :
    (∀ E, A.eliminate = some E → A.width = A.height ∧
      ∃ (order : Equiv.Perm (Fin A.height)) (L U : Matrix (Fin A.height) (Fin A.height) ℝ),
        (∀ i, E.order.get i = order i) ∧
        (∀ i j, L i j = if j < i then E.cells i j else if i = j then 1 else 0) ∧
        (∀ i j, U i j = if j < i then 0 else E.cells i j) ∧
        (∀ i j, (L * U) i j = A.mat A.height A.height (order i) j) ∧
        (∀ i j, |L i j| ≤ 1) ∧ ∀ i, 1e-12 ≤ |U i i|) ∧
    ∀ square : A.width = A.height, A.eliminate = none ↔
      ∃ (column : Fin A.height) (E : Elimination ℝ A.height),
        Elimination.upTo (A.toSquare square) column = some E ∧ ∀ i, column ≤ i → |E.cells i column| < 1e-12 := by
  refine ⟨fun E made => ?_, fun square => ?_⟩
  · unfold eliminate at made
    split at made
    · rename_i square
      have kept := Elimination.eliminated_of_factor made
      refine ⟨square, kept.rows, Elimination.lowerPart E.cells A.height, Elimination.upperPart E.cells A.height,
        fun i => rfl, fun i j => ?_, fun i j => ?_, fun i j => ?_, fun i j => ?_, fun i => ?_⟩
      · simp [Elimination.lowerPart]
      · simp [Elimination.upperPart]
      · rw [kept.product, ← A.matrix_toSquare square]
        rfl
      · rcases lt_trichotomy j i with below | rfl | above
        · simpa [Elimination.lowerPart, below] using kept.bounded i j below j.isLt
        · simp [Elimination.lowerPart]
        · simp [Elimination.lowerPart, above.not_gt, above.ne]
      · simpa [Elimination.upperPart, Elimination.pivotFloor] using kept.pivots i i.isLt
    · cases made
  · rw [eliminate, dif_pos square]
    exact Elimination.factor_eq_none_iff _

end Downhill
