import Mathlib
import Downhill.Method.DynamicBarrier
import Downhill.Method.GradientProjection
import Downhill.Proofs.Definite.Composite
import Downhill.Proofs.Definite.Factorizations
import Downhill.Proofs.InteriorPoint.Invariant

namespace Downhill

variable {quotient root : ℝ → ℝ}

namespace GradientProjection

theorem method_extended : @method ℝ (.extended quotient root) = method := by
  unfold method step direction
  rw [Downhill.solve_extended, Coords.norm_extended]
  rfl

end GradientProjection

namespace DynamicBarrier

theorem single_extended : @single ℝ (.extended quotient root) = single := by
  funext gradient row barrier
  unfold single
  refine ite_congr rfl (fun changes => dite_congr rfl (fun present => bind_congr fun slope => ?_) fun _ => rfl)
    fun _ => rfl
  exact congrArg (fun l : ℝ => (pure (if 0 ≤ l then l else 0) : Checked ℝ))
    (Scalar.div_extended (barrier[0] - slope) (ne_of_gt changes))

/-- A row that is zero is not divided by. -/
theorem single_of_still {gradient row barrier : Coords ℝ} (still : ¬0 < row.pairing row) :
    single gradient row barrier = .ok 0 :=
  (if_neg still).trans (congrArg Except.ok (if_pos le_rfl))

theorem nested_extended : @nested ℝ (.extended quotient root) = nested := by
  unfold nested
  rw [ProximalMomentum.method_extended, Method.solve_extended]
  rfl

theorem method_extended : @method ℝ (.extended quotient root) = method := by
  unfold method step multipliers
  rw [nested_extended, single_extended]
  rfl

end DynamicBarrier

namespace InteriorPoint

theorem maxDualStep_extended : @maxDualStep ℝ (.extended quotient root) = maxDualStep := by
  have falls : (fun (bound : ℝ) (l : ℝ × ℝ) => if l.2 < 0 then
      Scalar.lesser bound ((Scalar.extended quotient root).div (-l.1) l.2) else bound) =
      fun bound l => if l.2 < 0 then Scalar.lesser bound (-l.1 / l.2) else bound :=
    funext fun bound => funext fun l => ite_congr rfl
      (fun below => congrArg (Scalar.lesser bound) (Scalar.div_extended (-l.1) below.ne)) fun _ => rfl
  funext l change
  exact congrArg (fun f => (List.zip l.toList change.toList).foldl f 1) falls

theorem direction_extended : @direction ℝ (.extended quotient root) = direction := by
  unfold direction
  rw [Downhill.solve_extended]
  rfl

variable {t : ℝ}

theorem centralityResidual_extended (target : t ≠ 0) (values l : Coords ℝ) :
    @centralityResidual ℝ (.extended quotient root) values l t = centralityResidual values l t := by
  refine bind_congr fun products => ?_
  exact congrArg (fun c => (pure (products.map fun v => -v - c) : Checked (Coords ℝ)))
    (Scalar.div_extended 1 target)

theorem residual_extended (target : t ≠ 0) (p : Constrained ℝ) (x l : Coords ℝ) :
    @residual ℝ (.extended quotient root) p x l t = residual p x l t := by
  unfold residual
  simp only [centralityResidual_extended target]
  rfl

theorem attempt_extended (target : t ≠ 0) (config : Config ℝ) (p : Constrained ℝ) (s : MultiplierState ℝ)
    (dx dl : Coords ℝ) (start : ℝ) : @attempt ℝ (.extended quotient root) config p s dx dl start t =
      attempt config p s dx dl start t := by
  unfold attempt
  simp only [residual_extended target, Coords.norm_extended]
  rfl

theorem stepSize_extended (target : t ≠ 0) (config : Config ℝ) (p : Constrained ℝ) (s : MultiplierState ℝ)
    (dx dl r : Coords ℝ) : @stepSize ℝ (.extended quotient root) config p s dx dl r t =
      stepSize config p s dx dl r t := by
  unfold stepSize
  rw [attempt_extended target, Coords.norm_extended, maxDualStep_extended]
  rfl

variable {config : Config ℝ} {p : Constrained ℝ} {s : MultiplierState ℝ}

/-- In the interior the gap is positive, and so is the parameter that is divided by it. -/
theorem Interior.divisors_pos {n : Nat} (inside : Interior p.constraints n s)
    (valid : schema.validate config = .ok ()) {values : Coords ℝ} {eta : ℝ}
    (atValues : p.constraints.values s.point = .ok values) (atGap : gap values s.multipliers = .ok eta) :
    0 < eta ∧ 0 < config.mu * (s.multipliers.size : ℝ) / eta := by
  obtain ⟨_, same, negative⟩ := strictlyFeasible_eq_ok.mp inside.strict
  obtain rfl := Except.ok.inj (same.symm.trans atValues)
  have nonzero : s.multipliers.size ≠ 0 := inside.count ▸ inside.constrained
  obtain ⟨count, _⟩ := (gap_eq_ok rfl).mp atGap
  have positive := InteriorPoint.gap_pos nonzero count.symm negative inside.positive atGap
  exact ⟨positive, div_pos (mul_pos (validate_eq_ok.mp valid).1 (Nat.cast_pos.mpr (Nat.pos_of_ne_zero nonzero)))
    positive⟩

/-- At every state that is reached the gap can be divided by, and so can the parameter. -/
theorem divisors_of_after {x : Coords ℝ} (valid : schema.validate config = .ok ())
    (conforming : p.constraints.Conforming x.size) {k : Nat}
    (reached : method.after config p x () k = .ok (s, ())) :
    ∃ values eta, p.constraints.values s.point = .ok values ∧ gap values s.multipliers = .ok eta ∧ eta ≠ 0 ∧
      config.mu * (s.multipliers.size : ℝ) / eta ≠ 0 := by
  have inside := interior_of_after rfl valid reached
  obtain ⟨values, eta, atValues, _, _, atGap, positive⟩ := inside.gap_pos conforming
  exact ⟨values, eta, atValues, atGap, positive.ne', (inside.divisors_pos valid atValues atGap).2.ne'⟩

theorem step_extended (divisors : ∀ values eta, p.constraints.values s.point = .ok values →
      gap values s.multipliers = .ok eta → 0 < eta ∧ 0 < config.mu * (s.multipliers.size : ℝ) / eta) :
    @step ℝ (.extended quotient root) config p s = step config p s := by
  unfold step
  refine Work.bind_congr fun values atValues => bind_congr fun jacobian => bind_congr fun hessian =>
    bind_congr fun gradient => bind_congr fun curvature => Work.bind_congr fun eta atGap => ?_
  obtain ⟨positive, target⟩ := divisors values eta (Work.outcome_checked_eq_ok.mp atValues)
    (Work.outcome_checked_eq_ok.mp atGap)
  have same (v : ℝ) : @HDiv.hDiv ℝ ℝ ℝ (@instHDiv ℝ (Scalar.extended quotient root).toDiv) v eta = v / eta :=
    Scalar.div_extended v positive.ne'
  dsimp only
  rw [same]
  simp only [centralityResidual_extended target.ne', stepSize_extended target.ne',
    direction_extended, Coords.norm_extended]
  rfl

theorem residualMeasure_extended : @residualMeasure ℝ (.extended quotient root) = residualMeasure := by
  unfold residualMeasure
  rw [Coords.norm_extended]
  rfl

theorem definite (valid : schema.validate config = .ok ()) (p : Constrained ℝ) (x : Coords ℝ) :
    Method.Definite method config p x :=
  Method.definite_of_kept (Interior p.constraints x.size)
    (fun _ _ => by
      unfold method
      simp only [residualMeasure_extended]
      rfl)
    (fun _ _ => rfl) (fun _ started => interior_start rfl started)
    (fun _ _ _ _ inside => step_extended fun _ _ atValues atGap =>
      inside.divisors_pos valid atValues atGap)
    fun _ _ _ inside made => (inside.step valid made).1

end InteriorPoint

end Downhill
