import Mathlib
import Downhill.Method.GradientDescent
import Downhill.Method.Newton
import Downhill.Method.RandomSubspace
import Downhill.Method.WindowedNewton
import Downhill.Proofs.Acceleration
import Downhill.Proofs.Definite.Factorizations
import Downhill.Proofs.Definite.Runs
import Downhill.Proofs.Definite.Spectrum
import Downhill.Proofs.RandomSubspace

namespace Downhill

variable {quotient root : ℝ → ℝ}

theorem gradientMeasure_extended {S : Type} (point : S → Coords ℝ) :
    @gradientMeasure ℝ S (.extended quotient root) point = gradientMeasure point := by
  unfold gradientMeasure
  rw [Objective.gradientNorm_extended]

theorem GradientDescent.method_extended : @method ℝ (.extended quotient root) = method := by
  unfold method
  simp only [gradientMeasure_extended]
  rfl

namespace Acceleration

theorem radicand_pos (w : ℝ) : 0 < 1 + 4.0 * w * w := by
  norm_num
  nlinarith [mul_self_nonneg w]

theorem nextWeight_extended : @nextWeight ℝ (.extended quotient root) = nextWeight := by
  funext w
  change (Scalar.extended quotient root).div (1 + (Scalar.extended quotient root).sqrt (1 + 4.0 * w * w)) 2.0 = _
  rw [Scalar.sqrt_extended (radicand_pos w).le]
  exact Scalar.div_extended _ (by norm_num)

theorem mix_extended : @mix ℝ (.extended quotient root) = mix := by
  funext w
  have divisor : nextWeight w ≠ 0 := (one_pos.trans_le (one_le_nextWeight w)).ne'
  change (Scalar.extended quotient root).div (1 - w) (@nextWeight ℝ (.extended quotient root) w) = _
  rw [nextWeight_extended]
  exact Scalar.div_extended _ divisor

theorem method_extended : @method ℝ (.extended quotient root) = method := by
  unfold method update
  rw [mix_extended, nextWeight_extended]
  simp only [gradientMeasure_extended]
  rfl

end Acceleration

namespace Newton

theorem method_extended : @method ℝ (.extended quotient root) = method := by
  unfold method step direction
  rw [Downhill.solve_extended]
  simp only [gradientMeasure_extended]
  rfl

end Newton

namespace WindowedNewton

theorem method_extended : @method ℝ (.extended quotient root) = method := by
  unfold method step direction regularize
  rw [Downhill.solveDefinite_extended, Table.spectrum_extended]
  simp only [gradientMeasure_extended]
  rfl

end WindowedNewton

theorem Projection.random_extended {σ : Type} (next : σ → ℝ × σ) (m : Nat) {n : Nat} (nonzero : (n : ℝ) ≠ 0)
    (source : σ) : @random ℝ σ (.extended quotient root) next m n source = random next m n source := by
  unfold random
  simp only [Prod.mk.injEq, and_true]
  refine congrArg (Table.ofFn m n) (funext fun i => funext fun j => ?_)
  exact Scalar.div_extended _ nonzero

namespace RandomSubspace

variable {σ : Type} (next : σ → ℝ × σ)

theorem Shape.draw_extended {shape : Shape} (nonzero : ((shape.dim.toNat : Nat) : ℝ) ≠ 0) :
    @Shape.draw ℝ σ (.extended quotient root) shape next = shape.draw next := by
  funext source
  unfold Shape.draw
  rw [Projection.random_extended next _ nonzero]
  rfl

theorem dim_ne_zero {dim : UInt64} (positive : 0 < dim) : ((dim.toNat : Nat) : ℝ) ≠ 0 :=
  Nat.cast_ne_zero.mpr (UInt64.lt_iff_toNat_lt.mp positive).ne'

/-- A configuration that is accepted is for a space of some dimension, by which the samples are divided. -/
theorem Gradient.dim_of_valid {config : Gradient.Config ℝ} (valid : Gradient.schema.validate config = .ok ()) :
    ((config.dim.toNat : Nat) : ℝ) ≠ 0 :=
  dim_ne_zero (Gradient.validate_eq_ok.mp valid).2.1.1

theorem Newton.dim_of_valid {config : Newton.Config ℝ} (valid : Newton.schema.validate config = .ok ()) :
    ((config.dim.toNat : Nat) : ℝ) ≠ 0 :=
  dim_ne_zero (Newton.validate_eq_ok.mp valid).1.1

theorem Gradient.definite {config : Gradient.Config ℝ} (valid : Gradient.schema.validate config = .ok ())
    (f : Objective ℝ) (x : Coords ℝ) : Method.Definite (Gradient.method next) config f x :=
  Method.definite_of_kept (fun _ => True)
    (fun _ _ => by
      unfold Gradient.method
      simp only [gradientMeasure_extended]
      rfl)
    (fun _ _ => Shape.draw_extended next (dim_of_valid valid))
    (fun _ _ => trivial) (fun _ _ _ _ _ => rfl) fun _ _ _ _ _ => trivial

theorem Newton.step_extended : @Newton.step ℝ (.extended quotient root) = Newton.step := by
  unfold Newton.step Newton.direction
  rw [Downhill.solve_extended]
  rfl

theorem Newton.definite {config : Newton.Config ℝ} (valid : Newton.schema.validate config = .ok ())
    (f : Objective ℝ) (x : Coords ℝ) : Method.Definite (Newton.method next) config f x :=
  Method.definite_of_kept (fun _ => True)
    (fun _ _ => by
      unfold Newton.method
      simp only [gradientMeasure_extended]
      rfl)
    (fun _ _ => Shape.draw_extended next (dim_of_valid valid))
    (fun _ _ => trivial) (fun _ _ drawn s _ => congrFun₂ (congrFun₂ step_extended config f) drawn s)
    fun _ _ _ _ _ => trivial

end RandomSubspace

end Downhill
