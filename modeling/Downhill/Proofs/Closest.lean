import Downhill.Proofs.Terms

namespace Downhill.Coords

/-- The point belongs to the set, and everything else that belongs to it is further from the target. -/
structure Closest (target : Coords ℝ) (Belongs : Coords ℝ → Prop) (d : Coords ℝ) : Prop where
  belongs : Belongs d
  nearer : ∃ near, target.sub d = .ok near ∧
    ∀ v, Belongs v → v ≠ d → ∃ far, target.sub v = .ok far ∧ near.norm < far.norm

variable {n : Nat} {target d : Coords ℝ} {Belongs : Coords ℝ → Prop}

theorem closest_of_sqDist (size : target.size = n) (fits : ∀ v, Belongs v → v.size = n) (belongs : Belongs d)
    (nearer : ∀ v, Belongs v → d.vec n ≠ v.vec n →
      sqDist (target.vec n) (d.vec n) < sqDist (target.vec n) (v.vec n)) :
    target.Closest Belongs d := by
  obtain ⟨near, atNear, _⟩ := sub_ok size (fits d belongs)
  refine ⟨belongs, near, atNear, fun v member apart => ?_⟩
  obtain ⟨far, atFar, _⟩ := sub_ok size (fits v member)
  have vectors : d.vec n ≠ v.vec n := fun same =>
    apart (eq_of_vec (fits v member) (fits d belongs) same.symm)
  refine ⟨far, atFar, ?_⟩
  rw [norm_of_sub size atNear, norm_of_sub size atFar]
  exact Real.sqrt_lt_sqrt (sqDist_nonneg _ _) (nearer v member vectors)

end Downhill.Coords
