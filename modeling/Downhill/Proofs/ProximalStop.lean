import Downhill.Proofs.ProximalGradient
import Downhill.Proofs.ProximalMomentum.Stop

namespace Downhill

variable {n : Nat} {p : Composite ℝ} {h : ProximalTerm n}

/-- At no point is the objective with its term lower than at `q` by more than so large a share of the distance
of that point from `v`. -/
structure NearlyLeast (p : Composite ℝ) (h : ProximalTerm n) (share : ℝ) (v q : Coords ℝ) : Prop where
  size : q.size = n
  inside : q.vec n ∈ h.domain
  bound : ∃ fq, p.smooth.value q = .ok fq ∧ ∀ z, z.size = n → z.vec n ∈ h.domain →
    ∃ fz d, p.smooth.value z = .ok fz ∧ v.sub z = .ok d ∧
      fq + h.value (q.vec n) ≤ fz + h.value (z.vec n) + share * d.norm

theorem Majorant.At.nearlyLeast {v gradient : Coords ℝ} {tag : String} {loss initial factor share : ℝ}
    {found : ProximalStep ℝ} (starts : At p h v loss gradient) (convex : p.smooth.Convex n) (convexTerm : h.Convex)
    (above : 0 < initial) (positive : 0 < factor) (shrinks : factor ≤ 1)
    (searched : (run p tag v loss gradient initial factor).outcome = .ok found)
    (ample : ¬ Exhausted (run p tag v loss gradient initial factor))
    (close : √(sqDist (found.point.vec n) (v.vec n)) ≤ found.scale * share) :
    NearlyLeast p h share v found.point := by
  obtain ⟨scale, _, fq, trial, accepted⟩ := starts.run_cases above positive shrinks searched
  refine ⟨trial.size, trial.near.inside, fq, trial.value, fun z size inside => ?_⟩
  obtain ⟨fz, there⟩ := starts.conforming.value z size
  obtain ⟨d, apart, _⟩ := Coords.sub_ok starts.size size
  have tangent := convex v z loss fz gradient starts.size size starts.value there starts.slope
  refine ⟨fz, d, there, apart, ?_⟩
  rw [Coords.norm_of_sub starts.size apart]
  exact trial.nearly_least convexTerm scale (accepted ample) close inside tangent

section

variable (conforming : p.smooth.Conforming n) (expands : p.smooth.Expands n) (convex : p.smooth.Convex n)
  (convexTerm : h.Convex) (proximal : h.IsExact p.prox)

include conforming expands convex convexTerm proximal

theorem ProximalGradient.nearlyLeast_of_finished {config : Config ℝ} {s s' : PointState ℝ}
    (valid : schema.validate config = .ok ()) (size : s.point.size = n)
    (made : (step config p s).outcome = .ok s') (finished : s'.finished = true)
    (ample : ¬ Majorant.Exhausted (step config p s)) : NearlyLeast p h config.eps s.point s'.point := by
  obtain ⟨_, above, below⟩ := validate_eq_ok.mp valid
  obtain ⟨loss, gradient, found, moves⟩ := step_eq_ok.mp made
  have starts := Majorant.at_of_expand conforming expands proximal size moves.expand_eq
  obtain ⟨change, apart, marked⟩ := moves.finished_eq
  have close : change.norm ≤ found.scale * config.eps := of_decide_eq_true (marked.symm.trans finished)
  rw [Coords.norm_of_sub size apart, sqDist_comm] at close
  rw [moves.point_eq]
  exact starts.nearlyLeast convex convexTerm one_pos above below.le moves.search_eq
    (fun spent => ample (moves.exhausted_iff.mpr spent)) close

theorem ProximalMomentum.nearlyLeast_of_finished {config : Config ℝ} {s s' : State ℝ}
    (valid : schema.validate config = .ok ()) (sized : Sized n s) (made : (step config p s).outcome = .ok s')
    (finished : s'.finished = true) (ample : ¬ Majorant.Exhausted (step config p s)) :
    ∃ v, extrapolate { s with counter := s.counter + 1 } = .ok v ∧ NearlyLeast p h config.eps v s'.point := by
  obtain ⟨⟨above, below⟩, _⟩ := validate_eq_ok.mp valid
  obtain ⟨v, loss, gradient, found, moves⟩ := step_cases made
  have starts := moves.at conforming expands proximal sized
  obtain ⟨_, _, _, trial, _⟩ := starts.run_cases sized.positive above below.le moves.search_eq
  obtain ⟨change, apart, marked⟩ := moves.finished_eq
  have close : change.norm ≤ found.scale * config.eps := of_decide_eq_true (marked.symm.trans finished)
  rw [Coords.norm_of_sub trial.size apart] at close
  rw [moves.point_eq]
  exact ⟨v, moves.extrapolate_eq, starts.nearlyLeast convex convexTerm sized.positive above below.le
    moves.search_eq (fun spent => ample (moves.exhausted_iff.mpr spent)) close⟩

end

/-- On a convex objective with a convex term, a step of either method whose search is not exhausted leads to a
finished state only where the point is nearly least, by the tolerance and the distance from the point that was
searched from, be it extrapolated or not. -/
theorem stop_nearly_least (p : Composite ℝ) (x : Coords ℝ) (h : ProximalTerm x.size)
    (conforming : p.smooth.Conforming x.size) (expands : p.smooth.Expands x.size)
    (convex : p.smooth.Convex x.size) (convexTerm : h.Convex) (proximal : h.IsExact p.prox) :
    (∀ (config : ProximalGradient.Config ℝ) (k : Nat) (s s' : PointState ℝ),
      ProximalGradient.schema.validate config = .ok () →
      ProximalGradient.method.after config p x () k = .ok (s, ()) →
      ProximalGradient.method.after config p x () (k + 1) = .ok (s', ()) → s'.finished = true →
      ¬ Majorant.Exhausted (ProximalGradient.step config p s) → NearlyLeast p h config.eps s.point s'.point) ∧
    ∀ (config : ProximalMomentum.Config ℝ) (k : Nat) (s s' : ProximalMomentum.State ℝ),
      ProximalMomentum.schema.validate config = .ok () →
      ProximalMomentum.method.after config p x () k = .ok (s, ()) →
      ProximalMomentum.method.after config p x () (k + 1) = .ok (s', ()) → s'.finished = true →
      ¬ Majorant.Exhausted (ProximalMomentum.step config p s) →
      ∃ v, ProximalMomentum.extrapolate { s with counter := s.counter + 1 } = .ok v ∧
        NearlyLeast p h config.eps v s'.point := by
  constructor
  · intro config k s s' valid reached next finished ample
    have made := Method.step_of_after reached next
    have size := ProximalGradient.size_of_after conforming expands proximal valid rfl reached
    exact ProximalGradient.nearlyLeast_of_finished conforming expands convex convexTerm proximal valid size made
      finished ample
  · intro config k s s' valid reached next finished ample
    have made := Method.step_of_after reached next
    have sized := ProximalMomentum.sized_of_after conforming expands proximal valid rfl reached
    exact ProximalMomentum.nearlyLeast_of_finished conforming expands convex convexTerm proximal valid sized made
      finished ample

theorem ProximalGradient.finishes_of_small_gradient {config : Config ℝ} {s : PointState ℝ} {gradient : Coords ℝ}
    (conforming : p.smooth.Conforming n) (expands : p.smooth.Expands n)
    (proximal : (ProximalTerm.orthant n).IsExact p.prox) (valid : schema.validate config = .ok ())
    (size : s.point.size = n) (inside : 0 ≤ s.point.vec n) (slope : p.smooth.gradient s.point = .ok gradient)
    (small : √(gradient.vec n ⬝ᵥ gradient.vec n) ≤ config.eps) :
    ∃ s', (step config p s).outcome = .ok s' ∧ s'.finished = true := by
  obtain ⟨_, above, below⟩ := validate_eq_ok.mp valid
  obtain ⟨loss, other, found, s', moves, starts, _⟩ := step_ok conforming expands proximal valid size
  obtain rfl := Except.ok.inj (slope.symm.trans starts.slope)
  obtain ⟨positive, _, fq, trial, _⟩ := starts.run_cases one_pos above below.le moves.search_eq
  obtain ⟨change, apart, marked⟩ := moves.finished_eq
  refine ⟨s', step_eq_ok.mpr ⟨loss, gradient, found, moves⟩, ?_⟩
  rw [marked, decide_eq_true_eq, Coords.norm_of_sub size apart, sqDist_comm]
  exact trial.close_of_small positive inside small

open ProximalMomentum in
/-- From a twentieth both methods finish with their first step towards zero. -/
theorem stop_nearly_least_bowl : ∃ (s : PointState ℝ) (m : State ℝ) (v : Coords ℝ),
    ProximalGradient.method.after ⟨0.1, 0.5⟩ (bowl 1) (.constant 1 0.05) () 1 = .ok (s, ()) ∧
      s.finished = true ∧ NearlyLeast (bowl 1) (.orthant 1) 0.1 (.constant 1 0.05) s.point ∧
      method.after ⟨true, 0.5, 0.1⟩ (bowl 1) (.constant 1 0.05) () 1 = .ok (m, ()) ∧ m.finished = true ∧
      extrapolate { State.initial (.constant 1 0.05) with counter := 1 } = .ok v ∧
      NearlyLeast (bowl 1) (.orthant 1) 0.1 v m.point := by
  let x : Coords ℝ := .constant 1 0.05
  have plain : ProximalGradient.schema.validate (⟨0.1, 0.5⟩ : ProximalGradient.Config ℝ) = .ok () :=
    ProximalGradient.validate_eq_ok.mpr (by norm_num)
  have valid : schema.validate (⟨true, 0.5, 0.1⟩ : Config ℝ) = .ok () := validate_eq_ok.mpr (by norm_num)
  have conforming : (bowl 1).smooth.Conforming 1 := Objective.halfSquare_conforming 1
  have expands : (bowl 1).smooth.Expands 1 := Objective.quadratic_expands _ _ 1
  have convex : (bowl 1).smooth.Convex 1 := Objective.halfSquare_convex 1
  have smooth : (bowl 1).smooth.Smooth 1 1 := Objective.halfSquare_smooth 1
  have proximal := ProximalTerm.nonnegative_isExact 1
  have size : x.size = 1 := Coords.size_constant _ _
  have inside : 0 ≤ x.vec 1 := fun i => by
    rw [Coords.vec_constant]
    norm_num
  have shrunk : (0.5 : ℝ) ^ Majorant.maxShrinks * 1 ≤ 1 := by
    rw [mul_one]
    exact pow_le_one₀ (by norm_num) (by norm_num)
  obtain ⟨gradient, slope, _⟩ := conforming.gradient x size
  have small : √(gradient.vec 1 ⬝ᵥ gradient.vec 1) ≤ 0.1 := by
    rw [Objective.halfSquare_gradients slope, Coords.vec_constant]
    exact Real.sqrt_le_iff.mpr (by norm_num [dotProduct])
  obtain ⟨s, made, finished⟩ := ProximalGradient.finishes_of_small_gradient (s := .initial x) conforming expands
    proximal plain size inside slope small
  obtain ⟨m, moved⟩ := step_ok conforming expands proximal valid (sized_start size)
  have marked := finished_of_small_gradient conforming expands proximal valid size inside slope small moved
  have start : ProximalGradient.method.after ⟨0.1, 0.5⟩ (bowl 1) x () 0 = .ok (.initial x, ()) := rfl
  have reached : ProximalGradient.method.after ⟨0.1, 0.5⟩ (bowl 1) x () 1 = .ok (s, ()) :=
    Method.after_succ_eq_ok.mpr ⟨.initial x, (), start, made, rfl⟩
  have begun : method.after ⟨true, 0.5, 0.1⟩ (bowl 1) x () 0 = .ok (.initial x, ()) := rfl
  have gone : method.after ⟨true, 0.5, 0.1⟩ (bowl 1) x () 1 = .ok (m, ()) :=
    Method.after_succ_eq_ok.mpr ⟨.initial x, (), begun, moved, rfl⟩
  obtain ⟨first, second⟩ := stop_nearly_least (bowl 1) x (.orthant 1) conforming expands convex
    (ProximalTerm.orthant_convex 1) proximal
  obtain ⟨v, searched, near⟩ := second ⟨true, 0.5, 0.1⟩ 0 (.initial x) m valid begun gone marked
    (never_exhausted conforming expands proximal valid smooth zero_le_one shrunk size begun)
  exact ⟨s, m, v, reached, finished, first ⟨0.1, 0.5⟩ 0 (.initial x) s plain start reached finished
    (ProximalGradient.never_exhausted conforming expands proximal plain smooth shrunk size start), gone, marked,
    searched, near⟩

end Downhill
