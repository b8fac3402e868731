import Mathlib
import Downhill.Proofs.Cholesky.Solution
import Downhill.Proofs.Definite.Arithmetic
import Downhill.Proofs.Elimination.Solution

namespace Downhill

variable {quotient root : ℝ → ℝ} {n : Nat}

namespace Elimination

theorem pivotFloor_pos : (0 : ℝ) < pivotFloor := by
  norm_num [pivotFloor]

/-- A column that is cleared has a pivot away from zero. -/
theorem pivot_of_step {E E' : Elimination ℝ n} {column : Fin n} (made : E.step column = some E') :
    (E.exchangeRows column (pivotRow E.cells column)).cells column column ≠ 0 := by
  unfold step at made
  dsimp only at made
  split at made
  · cases made
  rename_i clear
  rw [cells_exchangeRows, Equiv.swap_apply_left]
  exact abs_pos.mp (pivotFloor_pos.trans_le (not_lt.mp (not_or.mp clear).1))

/-- A factored square has no zero on its diagonal. -/
theorem diagonal_of_factor {A : Square ℝ n} {E : Elimination ℝ n} (made : factor A = some E) (i : Fin n) :
    E.cells i i ≠ 0 :=
  (eliminated_of_factor made).pivot_ne_zero i

theorem clearColumn_extended {A : Square ℝ n} {column : Fin n} (pivot : A column column ≠ 0) :
    @clearColumn ℝ (.extended quotient root) n A column = clearColumn A column := by
  have multiple (i : Fin n) : (Scalar.extended quotient root).div (A i column) (A column column) =
      A i column / A column column :=
    Scalar.div_extended _ pivot
  unfold clearColumn
  refine congrArg Square.ofFn (funext fun i => funext fun j => ?_)
  split_ifs
  · rfl
  · exact multiple i
  · exact congrArg (A i j - · * A column j) (multiple i)
  · rfl

theorem step_extended : @step ℝ (.extended quotient root) n = step := by
  funext E column
  unfold step
  refine ite_congr rfl (fun _ => rfl) fun clear => ?_
  have pivot := pivot_of_step (if_neg clear : E.step column = some _)
  exact congrArg (fun cells => some { E.exchangeRows column (pivotRow E.cells column) with cells })
    (clearColumn_extended pivot)

theorem factor_extended : @factor ℝ (.extended quotient root) n = factor := by
  unfold factor
  rw [step_extended]

theorem solution_extended {E : Elimination ℝ n} (pivots : ∀ i, E.cells i i ≠ 0) :
    @solution ℝ (.extended quotient root) n E = E.solution := by
  have last : @backward ℝ (.extended quotient root) n E = E.backward :=
    funext fun y => congrArg (Square.settle (List.finRange n).reverse)
      (funext fun x => funext fun i => Scalar.div_extended _ (pivots i))
  unfold solution
  rw [last]
  rfl

end Elimination

theorem Table.eliminate_extended : @eliminate ℝ (.extended quotient root) = eliminate := by
  funext A
  unfold eliminate
  rw [Elimination.factor_extended]

/-- What is divided by when a table that has been eliminated is solved. -/
theorem Table.diagonal_of_eliminate {A : Table ℝ} {E : Elimination ℝ A.height} (made : A.eliminate = some E)
    (i : Fin A.height) : E.cells i i ≠ 0 := by
  unfold eliminate at made
  split at made
  · exact Elimination.diagonal_of_factor made i
  · cases made

theorem solve_extended : @solve ℝ (.extended quotient root) = solve := by
  funext A b system
  unfold solve
  rw [Table.eliminate_extended]
  split
  · cases made : A.eliminate with
    | none => rfl
    | some E =>
      dsimp only
      rw [Elimination.solution_extended (Table.diagonal_of_eliminate made)]
      rfl
  · rfl

namespace Cholesky

/-- A column that is added has a positive pivot, whose root stands on the diagonal. -/
theorem pivot_of_step {A L L' : Square ℝ n} {j : Fin n} (made : step A L j = some L') :
    0 < A j j - overlap L j j := by
  unfold step at made
  dsimp only at made
  split at made
  · rename_i accepted
    exact accepted.2
  · cases made

/-- A factor has no zero on its diagonal. -/
theorem diagonal_of_factor {A : Square ℝ n} {C : Cholesky ℝ n} (made : factor A = some C) (i : Fin n) :
    0 < C.lower i i :=
  (factored_of_factor made).pivots i i.isLt

theorem step_extended : @step ℝ (.extended quotient root) n = step := by
  funext A L j
  unfold step
  refine ite_congr rfl (fun accepted => ?_) fun _ => rfl
  have pivot : 0 < A j j - overlap L j j := accepted.2
  refine congrArg (some ∘ Square.ofFn) (funext fun i => funext fun k => ?_)
  split_ifs
  · exact Scalar.sqrt_extended pivot.le
  · exact Scalar.div_sqrt_extended _ pivot
  · rfl
  · rfl

theorem factor_extended : @factor ℝ (.extended quotient root) n = factor := by
  unfold factor
  rw [step_extended]

theorem solution_extended {C : Cholesky ℝ n} (pivots : ∀ i, C.lower i i ≠ 0) :
    @solution ℝ (.extended quotient root) n C = C.solution := by
  have first : @forward ℝ (.extended quotient root) n C = C.forward :=
    funext fun b => congrArg (Square.settle (List.finRange n))
      (funext fun y => funext fun i => Scalar.div_extended _ (pivots i))
  have last : @backward ℝ (.extended quotient root) n C = C.backward :=
    funext fun y => congrArg (Square.settle (List.finRange n).reverse)
      (funext fun x => funext fun i => Scalar.div_extended _ (pivots i))
  unfold solution
  rw [first, last]

end Cholesky

theorem Table.cholesky_extended : @cholesky ℝ (.extended quotient root) = cholesky := by
  funext A
  unfold cholesky
  rw [Cholesky.factor_extended]

theorem Table.diagonal_of_cholesky {A : Table ℝ} {C : Cholesky ℝ A.height} (made : A.cholesky = some C)
    (i : Fin A.height) : 0 < C.lower i i := by
  unfold cholesky at made
  split at made
  · exact Cholesky.diagonal_of_factor made i
  · cases made

theorem solveDefinite_extended : @solveDefinite ℝ (.extended quotient root) = solveDefinite := by
  funext A b system
  unfold solveDefinite
  rw [Table.cholesky_extended, solve_extended]
  cases made : A.cholesky with
  | none => rfl
  | some C =>
    have pivots (i : Fin A.height) : C.lower i i ≠ 0 := (Table.diagonal_of_cholesky made i).ne'
    dsimp only
    unfold Cholesky.solve
    rw [Cholesky.solution_extended pivots]

end Downhill
