import Mathlib
import Downhill.Method.ProximalGradient
import Downhill.Method.ProximalMomentum
import Downhill.Proofs.Definite.Runs

namespace Downhill

variable {quotient root : ℝ → ℝ}

theorem ProximalGradient.method_extended : @method ℝ (.extended quotient root) = method := by
  unfold method step
  rw [Coords.norm_extended]
  rfl

namespace ProximalMomentum

theorem momentumDivisor_pos (counter : Nat) : (0 : ℝ) < (counter : ℝ) + 1 :=
  Nat.cast_add_one_pos counter

theorem momentum_extended : @momentum ℝ (.extended quotient root) = momentum :=
  funext fun counter => Scalar.div_extended _ (momentumDivisor_pos counter).ne'

theorem method_extended : @method ℝ (.extended quotient root) = method := by
  unfold method step extrapolate
  rw [Coords.norm_extended, momentum_extended]
  rfl

end ProximalMomentum

end Downhill
