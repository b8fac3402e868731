import Mathlib
import Downhill.LinearSystem
import Downhill.Proofs.Elimination.Factors

namespace Downhill

namespace Elimination

variable {n : Nat}

theorem lowerPart_mulVec_forward (E : Elimination ℝ n) (b : Fin n → ℝ) :
    (lowerPart E.cells n).mulVec (E.forward b).get = b ∘ E.order.get := by
  have ones : ∀ i, lowerPart E.cells n i i = 1 := fun i => by simp [lowerPart]
  refine Square.mulVec_settle_forward (fun i j front => by simp [lowerPart, front.not_gt, front.ne])
    (fun i => by rw [ones]; exact one_ne_zero) fun y i => ?_
  have entries : ∀ j, (if j < i then lowerPart E.cells n i j * y.get j else 0) =
      if j < i then E.cells i j * y.get j else 0 := by
    intro j
    split
    · rename_i front
      simp [lowerPart, front]
    · rfl
  simp only [Square.foldl_sub, Square.sum_before, ones, div_one, entries, Function.comp_apply]

theorem upperPart_mulVec_backward (E : Elimination ℝ n) (pivots : ∀ i, E.cells i i ≠ 0)
    (y : Vector ℝ n) : (upperPart E.cells n).mulVec (E.backward y).get = y.get := by
  have diagonal : ∀ i, upperPart E.cells n i i = E.cells i i := fun i => by simp [upperPart]
  refine Square.mulVec_settle_backward (fun i j front => by simp [upperPart, front])
    (fun i => by rw [diagonal]; exact pivots i) fun x i => ?_
  have entries : ∀ j, (if i < j then upperPart E.cells n i j * x.get j else 0) =
      if i < j then E.cells i j * x.get j else 0 := by
    intro j
    split
    · rename_i behind
      simp [upperPart, behind.not_gt]
    · rfl
  simp only [Square.foldl_sub, Square.sum_after, diagonal, entries]

theorem Eliminated.pivot_ne_zero {A : Square ℝ n} {E : Elimination ℝ n} (kept : Eliminated A n E)
    (i : Fin n) : E.cells i i ≠ 0 := by
  have positive : (0 : ℝ) < pivotFloor := by norm_num [pivotFloor]
  exact abs_pos.mp (positive.trans_le (kept.pivots i i.isLt))

theorem Eliminated.matrix_mulVec_solution {A : Square ℝ n} {E : Elimination ℝ n}
    (kept : Eliminated A n E) (b : Fin n → ℝ) : A.matrix.mulVec (E.solution b).get = b := by
  have rows : (A.matrix.mulVec (E.solution b).get) ∘ E.order.get = b ∘ E.order.get := by
    calc (A.matrix.mulVec (E.solution b).get) ∘ E.order.get
        = (A.matrix.submatrix E.order.get id).mulVec (E.solution b).get := rfl
      _ = (lowerPart E.cells n).mulVec ((upperPart E.cells n).mulVec (E.solution b).get) := by
          rw [← kept.product, Matrix.mulVec_mulVec]
      _ = (lowerPart E.cells n).mulVec (E.forward b).get := by
          rw [solution, upperPart_mulVec_backward E kept.pivot_ne_zero]
      _ = b ∘ E.order.get := lowerPart_mulVec_forward E b
  exact (Finite.injective_iff_surjective.mp kept.permuted).injective_comp_right rows

theorem Eliminated.det_ne_zero {A : Square ℝ n} {E : Elimination ℝ n} (kept : Eliminated A n E) :
    A.matrix.det ≠ 0 := by
  have lower : (lowerPart E.cells n).det = 1 := by
    have triangle : (lowerPart E.cells n).IsLowerTriangular := by
      intro i l less
      have front : i < l := less
      simp [lowerPart, front.not_gt, front.ne]
    rw [Matrix.det_of_isLowerTriangular _ triangle]
    exact Finset.prod_eq_one fun i _ => by simp [lowerPart]
  have upper : (upperPart E.cells n).det ≠ 0 := by
    have triangle : (upperPart E.cells n).IsUpperTriangular := by
      intro l j less
      have front : j < l := less
      simp [upperPart, front]
    rw [Matrix.det_of_isUpperTriangular triangle]
    exact Finset.prod_ne_zero_iff.mpr fun i _ => by simpa [upperPart] using kept.pivot_ne_zero i
  have permuted : (A.matrix.submatrix E.order.get id).det ≠ 0 := by
    rw [← kept.product, Matrix.det_mul, lower, one_mul]
    exact upper
  intro singular
  rw [kept.det_rows, singular, mul_zero] at permuted
  exact permuted rfl

end Elimination

theorem Table.matrix_toSquare (A : Table ℝ) (square : A.width = A.height) :
    (A.toSquare square).matrix = A.mat A.height A.height := by
  ext i j
  rw [mat_entry i.isLt (square.symm ▸ j.isLt)]
  exact Square.entry_ofFn _ i j

theorem Coords.vec_toArray {n : Nat} (v : Vector ℝ n) :
    (⟨v.toArray⟩ : Coords ℝ).vec n = v.get := by
  funext i
  have inside : i.val < (⟨v.toArray⟩ : Coords ℝ).size := by simp [size]
  rw [vec_of_lt inside]
  rfl

/-- What the elimination of a table says about the table. -/
theorem Table.eliminated {A : Table ℝ} {E : Elimination ℝ A.height} (made : A.eliminate = some E) :
    A.width = A.height ∧ (A.mat A.height A.height).det ≠ 0 ∧
      ∀ b, (A.mat A.height A.height).mulVec (E.solution b).get = b := by
  unfold eliminate at made
  split at made
  · rename_i square
    have kept := Elimination.eliminated_of_factor made
    rw [← A.matrix_toSquare square]
    exact ⟨square, kept.det_ne_zero, kept.matrix_mulVec_solution⟩
  · cases made

/-- A square table is eliminated where every square with its entries is factored. -/
theorem Table.eliminate_of_factor {A : Table ℝ} {n : Nat} (high : A.height = n) (wide : A.width = n)
    (factored : ∀ B : Square ℝ n, B.matrix = A.mat n n → ∃ E, Elimination.factor B = some E) :
    ∃ E, A.eliminate = some E := by
  subst high
  rw [eliminate, dif_pos wide]
  exact factored _ (A.matrix_toSquare wide)

/-- A table is eliminated where it takes no vector with a coordinate of one to small entries alone. -/
theorem Table.eliminate_of_images {A : Table ℝ} {n : Nat} (high : A.height = n) (wide : A.width = n)
    (large : ∀ z k, z k = 1 → ∃ i, Elimination.pivotFloor ≤ |(A.mat n n).mulVec z i|) :
    ∃ E, A.eliminate = some E := by
  refine eliminate_of_factor high wide fun B same => Option.ne_none_iff_exists'.mp fun refused => ?_
  obtain ⟨z, k, one, small⟩ := Elimination.small_image_of_factor refused
  rw [same] at small
  obtain ⟨i, clear⟩ := large z k one
  exact absurd (small i) (not_lt.mpr clear)

theorem Table.eliminate_of_clear {A : Table ℝ} (high : A.height = 1) (wide : A.width = 1)
    (clear : Elimination.pivotFloor ≤ |A.mat 1 1 0 0|) : ∃ E, A.eliminate = some E := by
  refine eliminate_of_factor high wide fun B same => Elimination.factor_of_one ?_
  have entry : B 0 0 = A.mat 1 1 0 0 := congrFun (congrFun same 0) 0
  rwa [entry]

theorem Table.eliminate_of_one {A : Table ℝ} (high : A.height = 1) (wide : A.width = 1)
    (one : A.mat 1 1 = 1) : ∃ E, A.eliminate = some E := by
  refine eliminate_of_clear high wide ?_
  rw [one]
  norm_num [Elimination.pivotFloor]

theorem Table.eliminate_of_two {A : Table ℝ} (high : A.height = 2) (wide : A.width = 2)
    (unit : ∀ i, |A.mat 2 2 i 0| = 1) (regular : Elimination.pivotFloor ≤ |(A.mat 2 2).det|) :
    ∃ E, A.eliminate = some E := by
  refine eliminate_of_factor high wide fun B same => Elimination.factor_of_two (fun i => ?_) (same ▸ regular)
  have entry : B i 0 = A.mat 2 2 i 0 := congrFun (congrFun same i) 0
  exact entry ▸ unit i

/-- A fitting right side is solved by the factors, and no unknown is infinite. -/
theorem solve_of_eliminate {A : Table ℝ} {E : Elimination ℝ A.height} (made : A.eliminate = some E)
    {b : Coords ℝ} (same : A.height = b.size) (system : String) :
    ∃ x, E.solve b = .ok x ∧ solve A b system = .ok x ∧ x.vec A.height = (E.solution (b.vec A.height)).get ∧
      x.size = A.height := by
  have right : (fun i : Fin A.height => b.get i (same ▸ i.isLt)) = b.vec A.height := by
    funext i
    exact (Coords.vec_of_lt (same ▸ i.isLt)).symm
  refine ⟨⟨(E.solution (b.vec A.height)).toArray⟩, ?_, ?_, Coords.vec_toArray _, by simp [Coords.size]⟩
  · rw [Elimination.solve, dif_pos same.le, ← right]
  · rw [solve, dif_pos same, made, ← right]
    simp

theorem solve_eq_error_iff {A : Table ℝ} {b : Coords ℝ} {system : String} {why : Failure ℝ} :
    solve A b system = .error why ↔
      (A.height ≠ b.size ∧ why = .sizeMismatch A.height b.size) ∨
      (A.height = b.size ∧ A.eliminate = none ∧ why = .singularSystem system) := by
  by_cases same : A.height = b.size
  · cases made : A.eliminate with
    | none => simp [solve, same, made, eq_comm]
    | some E =>
      obtain ⟨x, _, solved, _⟩ := solve_of_eliminate made same system
      simp [solved, same]
  · simp [solve, same, eq_comm]

theorem eliminate_of_solve {A : Table ℝ} {b x : Coords ℝ} {system : String}
    (solved : solve A b system = .ok x) : ∃ E, A.eliminate = some E := by
  refine Option.ne_none_iff_exists'.mp fun refused => ?_
  by_cases same : A.height = b.size
  · cases solved.symm.trans (solve_eq_error_iff.mpr (Or.inr ⟨same, refused, rfl⟩))
  · cases solved.symm.trans (solve_eq_error_iff.mpr (Or.inl ⟨same, rfl⟩))

/-- A solved system is square and regular, and what comes out satisfies it. -/
theorem solve_eq_ok {A : Table ℝ} {b x : Coords ℝ} {system : String}
    (solved : solve A b system = .ok x) :
    A.width = A.height ∧ A.height = b.size ∧ x.size = A.height ∧
      (A.mat A.height A.height).det ≠ 0 ∧
      (A.mat A.height A.height).mulVec (x.vec A.height) = b.vec A.height := by
  have refused : ∀ why, solve A b system ≠ .error why := by
    rw [solved]
    exact fun _ => nofun
  have same : A.height = b.size := by
    by_contra differ
    exact refused _ (solve_eq_error_iff.mpr (Or.inl ⟨differ, rfl⟩))
  cases made : A.eliminate with
  | none => exact absurd (solve_eq_error_iff.mpr (Or.inr ⟨same, made, rfl⟩)) (refused _)
  | some E =>
    obtain ⟨square, regular, inverse⟩ := A.eliminated made
    obtain ⟨z, _, found, value, size⟩ := solve_of_eliminate made same system
    obtain rfl : z = x := Except.ok.inj (found.symm.trans solved)
    exact ⟨square, same, size, regular, value ▸ inverse _⟩

theorem mulVec_of_solve {A : Table ℝ} {b x : Coords ℝ} {system : String} {n : Nat}
    (solved : solve A b system = .ok x) (high : A.height = n) :
    x.size = n ∧ (A.mat n n).mulVec (x.vec n) = b.vec n := by
  subst high
  obtain ⟨_, _, size, _, solution⟩ := solve_eq_ok solved
  exact ⟨size, solution⟩

/-- Solving is exact. What comes out is the one solution of the system, whose table is then not
singular; the factors of a table solve every right side of its size the same way; and a system is
refused only where the sizes differ, or where they agree and the table cannot be factored. -/
theorem solve_exact (A : Table ℝ) (b : Coords ℝ) (system : String) :
    (∀ x, solve A b system = .ok x →
      A.width = A.height ∧ (A.mat A.height A.height).det ≠ 0 ∧
        A.apply x = .ok b ∧ ∀ y, A.apply y = .ok b → y = x) ∧
    (∀ E, A.eliminate = some E → ∀ c : Coords ℝ, c.size = A.height →
      ∃ x, E.solve c = .ok x ∧ solve A c system = .ok x) ∧
    (∀ why, solve A b system = .error why ↔
      (A.height ≠ b.size ∧ why = .sizeMismatch A.height b.size) ∨
      (A.height = b.size ∧ A.eliminate = none ∧ why = .singularSystem system)) := by
  refine ⟨fun x solved => ?_, fun E made c size => ?_, fun why => solve_eq_error_iff⟩
  · obtain ⟨square, same, size, regular, solution⟩ := solve_eq_ok solved
    refine ⟨square, regular, ?_, fun y other => ?_⟩
    · exact (Table.apply_eq_ok_iff rfl square).mpr ⟨size, same.symm, solution⟩
    · obtain ⟨wide, _, product⟩ := (Table.apply_eq_ok_iff rfl square).mp other
      exact Coords.eq_of_vec wide size
        (Matrix.mulVec_injective_of_det_ne_zero regular (product.trans solution.symm))
  · obtain ⟨x, factors, solved, _⟩ := solve_of_eliminate made size.symm system
    exact ⟨x, factors, solved⟩

end Downhill
