import Downhill.LinearSystem
import Downhill.Proofs.Ending
import Downhill.Proofs.Matrices
import Downhill.Spectrum

namespace Downhill

namespace Table

variable {α : Type}

/-- The table has so many rows, and so many columns. -/
structure Shaped (A : Table α) (m n : Nat) : Prop where
  high : A.height = m
  wide : A.width = n

theorem shaped_ofFn (m n : Nat) (f : Fin m → Fin n → α) : (ofFn m n f).Shaped m n :=
  ⟨height_ofFn m n f, rfl⟩

variable {A B : Table α} {m n k : Nat}

theorem Shaped.transpose (shaped : A.Shaped m n) : A.transpose.Shaped n m := by
  obtain ⟨rfl, rfl⟩ := shaped
  exact shaped_ofFn _ _ _

variable [Scalar α]

theorem Shaped.scale (shaped : A.Shaped m n) (t : α) : (A.scale t).Shaped m n := by
  obtain ⟨rfl, rfl⟩ := shaped
  exact shaped_ofFn _ _ _

theorem Shaped.add_ok (left : A.Shaped m n) (right : B.Shaped m n) : ∃ C, A.add B = .ok C ∧ C.Shaped m n := by
  obtain ⟨rfl, rfl⟩ := left
  exact ⟨_, by rw [add, combine, dif_pos right.high, dif_pos right.wide], shaped_ofFn _ _ _⟩

theorem Shaped.mul_ok (left : A.Shaped m n) (right : B.Shaped n k) : ∃ C, A.mul B = .ok C ∧ C.Shaped m k := by
  obtain ⟨rfl, rfl⟩ := left
  obtain ⟨same, rfl⟩ := right
  exact ⟨_, dif_pos same.symm, shaped_ofFn _ _ _⟩

theorem Shaped.symmetrize_ok (square : A.Shaped n n) : ∃ C, A.symmetrize = .ok C ∧ C.Shaped n n := by
  obtain ⟨double, added, shaped⟩ := square.add_ok square.transpose
  exact ⟨double.scale 0.5, by rw [symmetrize, added]; rfl, shaped.scale 0.5⟩

theorem Shaped.spectrum_ok (square : A.Shaped n n) : ∃ spectrum, A.spectrum = .ok spectrum := by
  obtain ⟨mean, made, high, wide⟩ := square.symmetrize_ok
  refine ⟨.ofSquare (mean.toSquare (wide.trans high.symm)), ?_⟩
  rw [spectrum, made]
  exact dif_pos (wide.trans high.symm)

end Table

variable {α : Type} [Scalar α] {A : Table α} {b : Coords α} {m n : Nat}

theorem solve_cases (high : A.height = n) (size : b.size = n) (system : String) :
    (∃ x, solve A b system = .ok x ∧ x.size = n) ∨ solve A b system = .error (.singularSystem system) := by
  unfold solve
  rw [dif_pos (high.trans size.symm)]
  split
  · exact Or.inr rfl
  · rename_i E _
    dsimp only
    split
    · exact Or.inl ⟨_, rfl, (Vector.size_toArray _).trans high⟩
    · exact Or.inr rfl

/-- All that can be wrong with a system whose sides fit is that it is singular. -/
theorem solve_ends (high : A.height = n) (size : b.size = n) (system : String) :
    (liftM (solve A b system) : Work α (Coords α)).Ends (fun x => x.size = n)
      fun why => why = .singularSystem system := by
  obtain found | singular := solve_cases high size system
  · exact Work.ends_except found
  · exact Work.ends_error singular rfl

theorem Cholesky.solve_ok (C : Cholesky α m) (size : b.size = m) : ∃ x, C.solve b = .ok x ∧ x.size = m := by
  unfold Cholesky.solve
  split
  · exact ⟨b, rfl, size⟩
  · exact ⟨_, rfl, Vector.size_toArray _⟩

theorem solveDefinite_ends (high : A.height = n) (size : b.size = n) (system : String) :
    (solveDefinite A b system).Ends (fun x => x.size = n) fun why => why = .singularSystem system := by
  unfold solveDefinite
  split
  · rename_i C _
    subst high
    exact Work.ends_checked (C.solve_ok size)
  · exact (Work.ends_note _).bind fun _ _ => solve_ends high size system

end Downhill
