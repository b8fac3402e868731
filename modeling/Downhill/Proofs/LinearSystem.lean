import Mathlib
import Downhill.Proofs.Cholesky.Positive

namespace Downhill

variable {n : Nat} {A : Table ℝ} {b : Coords ℝ}

/-- A symmetric table has a factor exactly where it is positive definite. -/
theorem Table.exists_cholesky_iff (high : A.height = n) (wide : A.width = n) (symmetric : (A.mat n n).IsSymm) :
    (∃ C, A.cholesky = some C) ↔ (A.mat n n).PosDef := by
  subst high
  have same := A.matrix_toSquare wide
  have mirrored : (A.toSquare wide).mirrored = A.mat A.height A.height :=
    (Square.mirrored_of_symmetric (same ▸ symmetric)).trans same
  rw [cholesky, dif_pos wide, Cholesky.exists_factor_iff, mirrored]
  constructor
  · intro positive
    refine .of_dotProduct_mulVec_pos ?_ fun x nonzero => by simpa using positive x nonzero
    exact (Matrix.conjTranspose_eq_transpose_of_trivial _).trans symmetric.eq
  · intro definite x nonzero
    simpa using definite.dotProduct_mulVec_pos nonzero

/-- A table without a factor is left to the general solver, and that is noted. -/
theorem solveDefinite_of_cholesky_none {α : Type} [Scalar α] {A : Table α} (refused : A.cholesky = none)
    (b : Coords α) (system : String) :
    solveDefinite A b system = ⟨[.fallback system], (solve A b system).mapError .failure⟩ := by
  rw [solveDefinite, refused]
  rfl

/-- A positive definite system is solved without a note. -/
theorem solveDefinite_of_posDef (high : A.height = n) (wide : A.width = n) (definite : (A.mat n n).PosDef)
    (size : b.size = n) (system : String) : ∃ x, solveDefinite A b system = ⟨[], .ok x⟩ ∧ x.size = n ∧
      (A.mat n n).mulVec (x.vec n) = b.vec n := by
  obtain ⟨C, made, solves⟩ := Table.cholesky_of_posDef high wide definite
  obtain ⟨x, solved, xSize, solution⟩ := solves b size
  refine ⟨x, ?_, xSize, solution⟩
  rw [solveDefinite_of_cholesky made, solved]
  rfl

/-- A regular system has no second solution. -/
theorem Table.apply_unique (high : A.height = n) (wide : A.width = n) (regular : (A.mat n n).det ≠ 0)
    {x y : Coords ℝ} (first : A.apply x = .ok b) (second : A.apply y = .ok b) : y = x := by
  obtain ⟨xSize, _, left⟩ := (apply_eq_ok_iff high wide).mp first
  obtain ⟨ySize, _, right⟩ := (apply_eq_ok_iff high wide).mp second
  exact Coords.eq_of_vec ySize xSize (Matrix.mulVec_injective_of_det_ne_zero regular (right.trans left.symm))

/-- What the general solver finds is the one solution. -/
theorem apply_of_solve {x : Coords ℝ} {system : String} (solved : solve A b system = .ok x) :
    A.apply x = .ok b ∧ ∀ y, A.apply y = .ok b → y = x := by
  obtain ⟨wide, same, size, regular, solution⟩ := solve_eq_ok solved
  have applied : A.apply x = .ok b := (Table.apply_eq_ok_iff rfl wide).mpr ⟨size, same.symm, solution⟩
  exact ⟨applied, fun y other => Table.apply_unique rfl wide regular applied other⟩

/-- On a symmetric system the solver that tries the cheaper factorization first finds what the general one
finds, and nothing but the one solution. It falls back exactly where the table is not positive definite, and
fails exactly where the table then has no elimination either. -/
theorem solveDefinite_agrees (high : A.height = n) (wide : A.width = n) (symmetric : (A.mat n n).IsSymm)
    (size : b.size = n) (system : String) :
    (∀ x, solve A b system = .ok x → (solveDefinite A b system).outcome = .ok x) ∧
    (∀ x, (solveDefinite A b system).outcome = .ok x → A.apply x = .ok b ∧ ∀ y, A.apply y = .ok b → y = x) ∧
    (∀ stop, (solveDefinite A b system).outcome = .error stop ↔
      stop = .failure (.singularSystem system) ∧ ¬ (A.mat n n).PosDef ∧ A.eliminate = none) ∧
    ((A.mat n n).PosDef → (solveDefinite A b system).events = []) ∧
    (¬ (A.mat n n).PosDef → (solveDefinite A b system).events = [.fallback system]) := by
  by_cases definite : (A.mat n n).PosDef
  · obtain ⟨x, solved, xSize, solution⟩ := solveDefinite_of_posDef high wide definite size system
    have applied : A.apply x = .ok b := (Table.apply_eq_ok_iff high wide).mpr ⟨xSize, size, solution⟩
    have unique : ∀ y, A.apply y = .ok b → y = x := fun y other =>
      Table.apply_unique high wide definite.det_pos.ne' applied other
    rw [solved]
    refine ⟨fun y found => ?_, fun y same => ?_, fun stop => ?_, fun _ => rfl,
      fun indefinite => absurd definite indefinite⟩
    · rw [unique y (apply_of_solve found).1]
    · obtain rfl := Except.ok.inj same
      exact ⟨applied, unique⟩
    · exact iff_of_false nofun fun why => why.2.1 definite
  · have refused : A.cholesky = none :=
      Option.eq_none_iff_forall_ne_some.mpr fun C made =>
        definite ((Table.exists_cholesky_iff high wide symmetric).mp ⟨C, made⟩)
    rw [solveDefinite_of_cholesky_none refused]
    refine ⟨fun y found => ?_, fun y found => ?_, fun stop => ?_, fun positive => absurd positive definite,
      fun _ => rfl⟩
    · exact Outcome.relabelled_eq_ok.mpr found
    · exact apply_of_solve (Outcome.relabelled_eq_ok.mp found)
    · rw [Outcome.relabelled_eq_error]
      constructor
      · rintro ⟨why, failed, rfl⟩
        rcases solve_eq_error_iff.mp failed with ⟨differ, _⟩ | ⟨_, singular, rfl⟩
        · exact absurd (high.trans size.symm) differ
        · exact ⟨rfl, definite, singular⟩
      · rintro ⟨rfl, _, singular⟩
        exact ⟨_, solve_eq_error_iff.mpr (Or.inr ⟨high.trans size.symm, singular, rfl⟩), rfl⟩

/-- The sum and the difference of two unknowns. -/
noncomputable def Table.crossed : Table ℝ :=
  .ofFn 2 2 fun i j => if i.val = 1 ∧ j.val = 1 then -1 else 1

theorem Table.mat_crossed : crossed.mat 2 2 = !![1, 1; 1, -1] := by
  rw [crossed, mat_ofFn]
  ext i j
  fin_cases i <;> fin_cases j <;> rfl

/-- A sum and a difference are no positive form, so that both solvers find them with the elimination. -/
theorem solveDefinite_agrees_crossed : ∃ x, solve Table.crossed (.constant 2 1) "balance" = .ok x ∧
    solveDefinite Table.crossed (.constant 2 1) "balance" = ⟨[.fallback "balance"], .ok x⟩ := by
  have high : Table.crossed.height = 2 := Table.height_ofFn 2 2 _
  have size : (Coords.constant 2 (1 : ℝ)).size = 2 := Coords.size_constant 2 1
  have symmetric : (Table.crossed.mat 2 2).IsSymm := by
    rw [Table.mat_crossed]
    exact Matrix.IsSymm.ext fun i j => by fin_cases i <;> fin_cases j <;> rfl
  have indefinite : ¬ (Table.crossed.mat 2 2).PosDef := by
    intro definite
    have positive := definite.diag_pos (i := 1)
    rw [Table.mat_crossed] at positive
    norm_num at positive
  obtain ⟨E, made⟩ := Table.eliminate_of_two high rfl
    (fun i => by rw [Table.mat_crossed]; fin_cases i <;> norm_num)
    (by rw [Table.mat_crossed]; norm_num [Matrix.det_fin_two, Elimination.pivotFloor])
  obtain ⟨x, _, solved, _⟩ := solve_of_eliminate made (high.trans size.symm) "balance"
  obtain ⟨agrees, _, _, _, noted⟩ := solveDefinite_agrees high rfl symmetric size "balance"
  refine ⟨x, solved, ?_⟩
  rw [← noted indefinite, ← agrees x solved]

end Downhill
