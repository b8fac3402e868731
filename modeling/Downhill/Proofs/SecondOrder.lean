import Downhill.Proofs.Paraboloid

namespace Downhill.Objective

variable {f : Objective ℝ} {n : Nat}

/-- What is computed of a displacement is the product of the Hessian with it. -/
def HessianActs (f : Objective ℝ) (n : Nat) : Prop :=
  ∀ x v H, x.size = n → v.size = n → f.hessian x = .ok H → f.curvature x v = H.apply v

/-- At every point with `n` coordinates there are a value, a gradient and a Hessian, and for every displacement they
give the value at the point displaced. -/
def OwnExpansion (f : Objective ℝ) (n : Nat) : Prop :=
  ∀ x d, x.size = n → d.size = n → ∃ y v w g H, x.add d = .ok y ∧ f.value x = .ok v ∧ f.value y = .ok w ∧
    f.gradient x = .ok g ∧ g.size = n ∧ f.hessian x = .ok H ∧ H.height = n ∧ H.width = n ∧
    w = v + g.vec n ⬝ᵥ d.vec n + 0.5 * (d.vec n ⬝ᵥ (H.mat n n).mulVec (d.vec n))

theorem Paraboloid.ownExpansion {H : Table ℝ} (paraboloid : f.Paraboloid H n) (conforming : f.Conforming n)
    (hessian : ∀ x, x.size = n → f.hessian x = .ok H) : f.OwnExpansion n := by
  intro x d size fits
  obtain ⟨y, moved, ySize⟩ := Coords.add_ok size fits
  obtain ⟨v, here⟩ := conforming.value x size
  obtain ⟨w, there⟩ := conforming.value y ySize
  obtain ⟨g, slope, gSize⟩ := conforming.gradient x size
  refine ⟨y, v, w, g, H, moved, here, there, slope, gSize, hessian x size, paraboloid.high, paraboloid.wide, ?_⟩
  have way : y.vec n - x.vec n = d.vec n := by rw [Coords.vec_add moved, add_sub_cancel_left]
  rw [paraboloid.rise x y v w g size ySize here there slope, way]

end Downhill.Objective
