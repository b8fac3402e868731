import Mathlib
import Downhill.Proofs.GradientDescent
import Downhill.Proofs.Newton.Quadratic
import Downhill.Proofs.RandomSubspace

namespace Downhill.RandomSubspace

variable {σ : Type} {next : σ → ℝ × σ} {source : σ} {f : Objective ℝ} {s : PointState ℝ} {x : Coords ℝ}

/-- The basis of the whole space is there without a sample. -/
theorem Shape.draw_identity {shape : Shape} (mode : shape.mode = .identity) (next : σ → ℝ × σ) (source : σ) :
    shape.draw next source = (Table.identity shape.dim.toNat, source) := by
  rw [Shape.draw, mode]

namespace Newton

/-- The method on the whole space with the same search. -/
def Config.full (config : Config ℝ) : Downhill.Newton.Config ℝ :=
  ⟨config.alpha, config.beta⟩

variable {config : Config ℝ}

/-- The steps of the two methods lead to the same state, or fail for the same reason. -/
theorem steps_full (config : Config ℝ) (conforming : f.Conforming s.point.size) (expands : f.Expands s.point.size)
    (symmetric : f.SymmetricHessians s.point.size) :
    (∃ s', (Downhill.Newton.step config.full f s).outcome = .ok s' ∧
      (step config f (.identity s.point.size) s).outcome = .ok s' ∧ s'.point.size = s.point.size) ∨
    ((Downhill.Newton.step config.full f s).outcome = .error (.failure (.singularSystem "Newton direction")) ∧
      (step config f (.identity s.point.size) s).outcome =
        .error (.failure (.singularSystem "subspace Newton direction"))) := by
  obtain ⟨value, gradient, _, _, size, expanded⟩ := conforming.expand_ok expands rfl
  obtain ⟨hessian, atHessian, high, wide, kept⟩ := symmetric s.point rfl
  have expanded' := Objective.expand_full expanded size
  have atHessian' := Objective.hessian_full atHessian high wide kept
  have same : hessian.height = gradient.neg.size := high.trans (size.symm.trans (Coords.size_neg gradient).symm)
  -- Whether there is a solution does not depend on the name of the system.
  cases made : hessian.eliminate with
  | none =>
    have refused : ∀ system, solve hessian gradient.neg system = .error (.singularSystem system) := fun system =>
      solve_eq_error_iff.mpr (Or.inr ⟨same, made, rfl⟩)
    refine Or.inr ⟨?_, ?_⟩
    · refine Work.outcome_bind_eq_error.mpr (Or.inr ⟨_, Work.outcome_checked_eq_ok.mpr expanded, ?_⟩)
      refine Work.outcome_bind_eq_error.mpr (Or.inr ⟨_, Work.outcome_checked_eq_ok.mpr atHessian, ?_⟩)
      exact Work.outcome_bind_eq_error.mpr (Or.inl (Work.outcome_except_of_error (refused _)))
    · refine Work.outcome_bind_eq_error.mpr (Or.inr ⟨_, Work.outcome_checked_eq_ok.mpr expanded', ?_⟩)
      refine Work.outcome_bind_eq_error.mpr (Or.inr ⟨_, Work.outcome_checked_eq_ok.mpr atHessian', ?_⟩)
      exact Work.outcome_bind_eq_error.mpr (Or.inl (Work.outcome_except_of_error (refused _)))
  | some E =>
    obtain ⟨d, factors, solved, _, dHigh⟩ := solve_of_eliminate made same "Newton direction"
    obtain ⟨d', factors', solved', _⟩ := solve_of_eliminate made same "subspace Newton direction"
    obtain rfl := Except.ok.inj (factors.symm.trans factors')
    have dSize : d.size = s.point.size := dHigh.trans high
    have slope : gradient.dot d = .ok (gradient.pairing d) := if_pos (size.trans dSize.symm)
    obtain ⟨found, searched⟩ :=
      Armijo.run_ok conforming rfl dSize config.search value (gradient.pairing d)
    obtain ⟨y, moved, ySize⟩ := Coords.advance_ok rfl dSize found.step
    have moved' := moved
    rw [Coords.advance_eq_add_scale mul_comm] at moved'
    refine Or.inl ⟨{ s with point := y }, Downhill.Newton.step_eq_ok.mpr ⟨value, gradient, hessian, d, _, found,
      expanded, atHessian, solved, slope, searched, moved, rfl⟩, step_eq_ok.mpr ⟨value, gradient, hessian, d, d, _,
      found, expanded', atHessian', solved', ⟨Subspace.embed_full dSize, slope, searched, moved'⟩, rfl⟩, ySize⟩

section

variable (conforming : f.Conforming x.size) (expands : f.Expands x.size) (symmetric : f.SymmetricHessians x.size)
  (mode : config.mode = .identity) (dim : config.dim.toNat = x.size)

include conforming expands symmetric mode dim

theorem after_full (next : σ → ℝ × σ) (source : σ) (k : Nat) :
    (∃ s, Downhill.Newton.method.after config.full f x () k = .ok (s, ()) ∧
      (method next).after config f x source k = .ok (s, source) ∧ s.point.size = x.size) ∨
    (Downhill.Newton.method.after config.full f x () k =
        .error (.failure (.singularSystem "Newton direction")) ∧
      (method next).after config f x source k =
      .error (.failure (.singularSystem "subspace Newton direction"))) := by
  have drawn : (method next).draw config source = (.identity x.size, source) := by
    rw [← dim]
    exact Shape.draw_identity mode next source
  induction k with
  | zero =>
    refine Or.inl ⟨.initial x, rfl, Method.after_zero_eq_ok.mpr ⟨?_, rfl⟩, rfl⟩
    exact Work.outcome_except_eq_ok.mpr (if_pos dim.symm)
  | succ k ih =>
    rcases ih with ⟨s, reached, reached', size⟩ | ⟨stopped, stopped'⟩
    · rcases steps_full config (size.symm ▸ conforming) (size.symm ▸ expands) (size.symm ▸ symmetric) with
        ⟨s', made, made', same⟩ | ⟨failed, failed'⟩
      · refine Or.inl ⟨s', Method.after_succ_eq_ok.mpr ⟨s, (), reached, made, rfl⟩,
          Method.after_succ_eq_ok.mpr ⟨s, source, reached', ?_, by rw [drawn]⟩, same.trans size⟩
        rw [drawn, ← size]
        exact made'
      · refine Or.inr ⟨Method.after_succ_of_failed reached failed, Method.after_succ_of_failed reached' ?_⟩
        rw [drawn, ← size]
        exact failed'
    · exact Or.inr ⟨Method.after_error_mono stopped k.le_succ, Method.after_error_mono stopped' k.le_succ⟩

variable {s' : PointState ℝ} {source' : σ} {k : Nat}

theorem state_full (reached : Downhill.Newton.method.after config.full f x () k = .ok (s, ()))
    (reached' : (method next).after config f x source k = .ok (s', source')) : s = s' := by
  rcases after_full conforming expands symmetric mode dim next source k with ⟨t, same, same', _⟩ | ⟨stopped, _⟩
  · cases reached.symm.trans same
    cases reached'.symm.trans same'
    rfl
  · cases reached.symm.trans stopped

variable {ρ ρ' : Type} {watch : Watch ℝ ρ} {watch' : Watch ℝ ρ'} {records : ρ} {records' : ρ'} {budget : Nat}

/-- Runs that return have been through the same states and recorded the same. -/
theorem returned_full {summary summary' : Summary ℝ (PointState ℝ) (budget + 1)}
    (returned : (Downhill.Newton.method.run config.full f watch () records x budget).1 = .ok summary)
    (returned' : ((method next).run config f watch' source records' x budget).1 = .ok summary') :
    summary.state = summary'.state ∧ summary.iterations = summary'.iterations ∧
      ∀ quantity ∈ Downhill.Newton.method.tracked f, ∀ j,
        summary.history.at? quantity.1 j = summary'.history.at? quantity.1 j := by
  have result := Method.run_returned returned
  have result' := Method.run_returned returned'
  have same : summary.iterations = summary'.iterations :=
    (result.whole (Downhill.Newton.unfinished config.full f x)).trans
      (result'.whole (unfinished next config f x source)).symm
  obtain ⟨_, last⟩ := result.reached
  obtain ⟨_, last'⟩ := result'.reached
  rw [← same] at last'
  refine ⟨state_full conforming expands symmetric mode dim last last', same, fun quantity member j => ?_⟩
  refine result.at?_eq result' same member member (fun i t t' _ _ reached reached' => ?_) j
  rw [state_full conforming expands symmetric mode dim reached reached']

/-- Without recorders both runs return, or both fail. -/
theorem ran_full (valid : schema.validate config = .ok ()) (unrecorded : watch.recorder = none)
    (unrecorded' : watch'.recorder = none) :
    (∃ summary summary', (Downhill.Newton.method.run config.full f watch () records x budget).1 = .ok summary ∧
      ((method next).run config f watch' source records' x budget).1 = .ok summary') ∨
    ((Downhill.Newton.method.run config.full f watch () records x budget).1 =
        .error (.failure (.singularSystem "Newton direction")) ∧
      ((method next).run config f watch' source records' x budget).1 =
        .error (.failure (.singularSystem "subspace Newton direction"))) := by
  obtain ⟨_, fractions⟩ := validate_eq_ok.mp valid
  have valid' : Downhill.Newton.schema.validate config.full = .ok () :=
    Downhill.Newton.validate_eq_ok.mpr fractions
  have measured : ∀ i s between, (method next).after config f x source i = .ok (s, between) →
      ∀ quantity ∈ (method next).tracked f, ∃ v, quantity.2 s = .ok v := by
    intro i s between reached
    rcases after_full conforming expands symmetric mode dim next source i with ⟨t, _, same, size⟩ | ⟨_, stopped⟩
    · cases reached.symm.trans same
      exact Downhill.Newton.measured conforming size
    · cases reached.symm.trans stopped
  obtain ⟨stops, ends⟩ := Method.run_whole (m := Downhill.Newton.method) valid' unrecorded
    (fun i s _ reached => Downhill.Newton.measured conforming (Downhill.Newton.size_after reached))
    (Downhill.Newton.unfinished config.full f x)
  obtain ⟨stops', ends'⟩ := Method.run_whole valid unrecorded' measured (unfinished next config f x source)
  rcases after_full conforming expands symmetric mode dim next source budget with
    ⟨s, reached, reached', _⟩ | ⟨stopped, stopped'⟩
  · obtain ⟨summary, returned, _⟩ := ends s () reached
    obtain ⟨summary', returned', _⟩ := ends' s source reached'
    exact Or.inl ⟨summary, summary', returned, returned'⟩
  · exact Or.inr ⟨stops _ stopped, stops' _ stopped'⟩

end

end Newton

namespace Gradient

variable {config : Config ℝ} {L : ℝ}

/-- Against a smooth objective a step that is short enough is low enough. -/
theorem sufficient_of_short {v slope fy : ℝ} {g y : Coords ℝ} (large : 0 < L) (smooth : f.Smooth L s.point.size)
    (positive : 0 < config.initial) (short : config.initial ≤ 2 * (1 - config.alpha) / L)
    (atValue : f.value s.point = .ok v) (atGradient : f.gradient s.point = .ok g) (size : g.size = s.point.size)
    (steep : g.dot (direction g) = .ok slope)
    (moved : Armijo.candidate s.point (direction g) config.initial = .ok y) (atCandidate : f.value y = .ok fy) :
    config.search.Sufficient v slope config.initial fy := by
  refine Armijo.sufficient_of_short smooth rfl atValue atGradient
    (Coords.dot_eq size.le steep).2 positive.le ?_ moved
    atCandidate
  have nonneg : 0 ≤ g.vec s.point.size ⬝ᵥ g.vec s.point.size := Finset.sum_nonneg fun i _ => mul_self_nonneg _
  have gain := mul_le_mul_of_nonneg_right ((le_div_iff₀ large).mp short) nonneg
  rw [(Coords.dot_eq size.le steep).2, direction, Coords.vec_neg, neg_dotProduct_neg, dotProduct_neg, neg_neg,
    ← mul_assoc]
  exact gain

/-- So both methods make the same step. -/
theorem step_full (conforming : f.Conforming s.point.size) (expands : f.Expands s.point.size) (large : 0 < L)
    (smooth : f.Smooth L s.point.size) (positive : 0 < config.initial)
    (short : config.initial ≤ 2 * (1 - config.alpha) / L) :
    ∃ s', (step config f (.identity s.point.size) s).outcome = .ok s' ∧
      GradientDescent.step ⟨config.initial⟩ f s = .ok s' ∧ s'.point.size = s.point.size := by
  obtain ⟨s', made⟩ : ∃ s', (step config f (.identity s.point.size) s).outcome = .ok s' :=
    step_ok conforming expands rfl rfl
  obtain ⟨value, gradient, along, slope, found, moves⟩ := step_eq_ok.mp made
  obtain ⟨v, g, atValue, atGradient, size, expanded⟩ := conforming.expand_ok expands rfl
  obtain ⟨rfl, rfl⟩ := Prod.mk.inj
    (Except.ok.inj ((Objective.expand_full expanded size).symm.trans moves.expand_eq))
  have down : (direction g).size = s.point.size := (Coords.size_neg g).trans size
  obtain rfl : direction g = along := Except.ok.inj ((Subspace.embed_full down).symm.trans moves.within.embed_eq)
  obtain ⟨y, moved, ySize⟩ := Coords.add_ok rfl ((Coords.size_scale (direction g) config.initial).trans down)
  obtain ⟨fy, atCandidate⟩ := conforming.value y ySize
  have low :=
    sufficient_of_short large smooth positive short atValue atGradient size moves.within.slope_eq moved atCandidate
  have first := (Armijo.initial_of_run moves.within.search_eq moved atCandidate low).1
  have landed := moves.within.point_eq
  rw [first] at landed
  obtain rfl := Except.ok.inj (moved.symm.trans landed)
  refine ⟨s', made, ?_, ySize⟩
  have advanced : s.point.advance config.initial (direction g) = .ok s'.point := by
    rw [Coords.advance_eq_add_scale mul_comm]
    exact moved
  simp only [GradientDescent.step, GradientDescent.move, Outcome.bind_eq_ok, Outcome.pure_eq_ok]
  refine ⟨g, atGradient, s'.point, advanced, ?_⟩
  rw [← moves.finished_eq]

theorem after_full (conforming : f.Conforming x.size) (expands : f.Expands x.size) (large : 0 < L)
    (smooth : f.Smooth L x.size) (positive : 0 < config.initial)
    (short : config.initial ≤ 2 * (1 - config.alpha) / L) (mode : config.mode = .identity)
    (dim : config.dim.toNat = x.size) (next : σ → ℝ × σ) (source : σ) (k : Nat) :
    ∃ s, (method next).after config f x source k = .ok (s, source) ∧
      GradientDescent.method.after ⟨config.initial⟩ f x () k = .ok (s, ()) ∧ s.point.size = x.size := by
  have drawn : (method next).draw config source = (.identity x.size, source) := by
    rw [← dim]
    exact Shape.draw_identity mode next source
  induction k with
  | zero =>
    refine ⟨.initial x, Method.after_zero_eq_ok.mpr ⟨?_, rfl⟩, rfl, rfl⟩
    exact Work.outcome_except_eq_ok.mpr (if_pos dim.symm)
  | succ k ih =>
    obtain ⟨s, reached, reached', size⟩ := ih
    obtain ⟨s', made, made', same⟩ := step_full (size.symm ▸ conforming) (size.symm ▸ expands)
      large (size.symm ▸ smooth) positive short
    refine ⟨s', Method.after_succ_eq_ok.mpr ⟨s, source, reached, ?_, by rw [drawn]⟩,
      Method.after_succ_eq_ok.mpr ⟨s, (), reached', Work.outcome_checked_eq_ok.mpr made', rfl⟩, same.trans size⟩
    rw [drawn, ← size]
    exact made

end Gradient

/-- With the basis of the whole space Newton's method in subspaces comes to the states of Newton's method, or
stops at the same step because a system is singular, and records the same; and gradient descent there is
gradient descent, with a first step up to the longest that is sure to be taken at once. -/
theorem identity_is_full (next : σ → ℝ × σ) (source : σ) (f : Objective ℝ) (x : Coords ℝ)
    (conforming : f.Conforming x.size) (expands : f.Expands x.size) :
    (∀ config : Newton.Config ℝ, Newton.schema.validate config = .ok () → config.mode = .identity →
      config.dim.toNat = x.size → f.SymmetricHessians x.size →
      let full : Downhill.Newton.Config ℝ := ⟨config.alpha, config.beta⟩
      let singular : Stop ℝ := .failure (.singularSystem "Newton direction")
      let singular' : Stop ℝ := .failure (.singularSystem "subspace Newton direction")
      (∀ k,
        (∃ s, Downhill.Newton.method.after full f x () k = .ok (s, ()) ∧
          (Newton.method next).after config f x source k = .ok (s, source)) ∨
        (Downhill.Newton.method.after full f x () k = .error singular ∧
          (Newton.method next).after config f x source k = .error singular')) ∧
      ∀ (ρ ρ' : Type) (watch : Watch ℝ ρ) (watch' : Watch ℝ ρ') (records : ρ) (records' : ρ') (budget : Nat),
        let ran := (Downhill.Newton.method.run full f watch () records x budget).1
        let ran' := ((Newton.method next).run config f watch' source records' x budget).1
        (∀ summary summary', ran = .ok summary → ran' = .ok summary' →
          summary.state = summary'.state ∧ summary.iterations = summary'.iterations ∧ ∀ j,
            summary.history.at? "func_values" j = summary'.history.at? "func_values" j ∧
              summary.history.at? "grad_norm" j = summary'.history.at? "grad_norm" j) ∧
        (watch.recorder = none → watch'.recorder = none →
          (∃ summary summary', ran = .ok summary ∧ ran' = .ok summary') ∨
            (ran = .error singular ∧ ran' = .error singular'))) ∧
    ∀ (config : Gradient.Config ℝ) (L : ℝ), Gradient.schema.validate config = .ok () → config.mode = .identity →
      config.dim.toNat = x.size → 0 < L → f.Smooth L x.size → config.initial ≤ 2 * (1 - config.alpha) / L →
      ∀ k, ∃ s, (Gradient.method next).after config f x source k = .ok (s, source) ∧
        GradientDescent.method.after ⟨config.initial⟩ f x () k = .ok (s, ()) := by
  refine ⟨fun config valid mode dim symmetric => ⟨fun k => ?_, fun ρ ρ' watch watch' records records' budget =>
    ⟨fun summary summary' returned returned' => ?_, fun unrecorded unrecorded' => ?_⟩⟩,
    fun config L valid mode dim large smooth short k => ?_⟩
  · rcases Newton.after_full conforming expands symmetric mode dim next source k with
      ⟨s, reached, reached', _⟩ | stopped
    · exact Or.inl ⟨s, reached, reached'⟩
    · exact Or.inr stopped
  · obtain ⟨state, iterations, series⟩ :=
      Newton.returned_full conforming expands symmetric mode dim returned returned'
    exact ⟨state, iterations, fun j => ⟨series _ List.mem_cons_self j,
      series _ (List.mem_cons_of_mem _ List.mem_cons_self) j⟩⟩
  · exact Newton.ran_full conforming expands symmetric mode dim valid unrecorded unrecorded'
  · obtain ⟨⟨_, positive⟩, _⟩ := Gradient.validate_eq_ok.mp valid
    obtain ⟨s, reached, reached', _⟩ :=
      Gradient.after_full conforming expands large smooth positive short mode dim next source k
    exact ⟨s, reached, reached'⟩

/-- Two steps on a form in two unknowns, although only one row was asked for, and with the longest first step. -/
theorem identity_is_full_slanted : (∃ s summary summary',
    Downhill.Newton.method.after ⟨0.75, 0.5⟩ .slanted (.constant 2 1) () 2 = .ok (s, ()) ∧
      (Newton.method fun _ : Unit => (0, ())).after ⟨2, 1, .identity, 0.75, 0.5⟩ .slanted (.constant 2 1) () 2 =
        .ok (s, ()) ∧
      (Downhill.Newton.method.run ⟨0.75, 0.5⟩ .slanted (.none : Watch ℝ Unit) () () (.constant 2 1) 2).1 =
        .ok summary ∧
      ((Newton.method fun _ : Unit => (0, ())).run ⟨2, 1, .identity, 0.75, 0.5⟩ .slanted (.none : Watch ℝ Unit)
        () () (.constant 2 1) 2).1 = .ok summary' ∧
      summary.history.at? "grad_norm" 2 = summary'.history.at? "grad_norm" 2) ∧
    ∃ s, (Gradient.method fun _ : Unit => (0, ())).after ⟨0.125, 1, 2, .identity, 0.75, 0.5⟩ .slanted
        (.constant 2 1) () 2 = .ok (s, ()) ∧
      GradientDescent.method.after ⟨0.125⟩ .slanted (.constant 2 1) () 2 = .ok (s, ()) := by
  have conforming := Objective.slanted_conforming
  have expands := Objective.slanted_expands
  have symmetric := Objective.slanted_symmetricHessians
  have smooth : Objective.slanted.Smooth 4 2 := by
    refine Objective.quadratic_smooth Table.height_slanted rfl Table.posDef_slanted.isHermitian fun d => ?_
    rw [Table.slanted_squares, dotProduct, Fin.sum_univ_two]
    nlinarith [sq_nonneg (d 0 - d 1), sq_nonneg (d 0), sq_nonneg (d 1)]
  obtain ⟨newton, descent⟩ :=
    identity_is_full (fun _ : Unit => (0, ())) () .slanted (.constant 2 1) conforming expands
  obtain ⟨steps, runs⟩ := newton ⟨2, 1, .identity, 0.75, 0.5⟩
    (Newton.validate_eq_ok.mpr ⟨by decide, by norm_num⟩) rfl rfl symmetric
  have directed : Downhill.Newton.Directed ⟨0.75, 0.5⟩ .slanted (.constant 2 1) 2 :=
    Downhill.Newton.directed_of_hessian conforming (fun _ _ => rfl) Table.height_slanted
      Downhill.Newton.slanted_eliminated 2
  have heights : ∀ y H, y.size = 2 → Objective.slanted.hessian y = .ok H → H.height = 2 := fun y H =>
    symmetric.height_eq
  have unwatched : (.none : Watch ℝ Unit).recorder = none := rfl
  obtain ⟨agree, ends⟩ := runs Unit Unit .none .none () () 2
  refine ⟨?_, descent ⟨0.125, 1, 2, .identity, 0.75, 0.5⟩ 4 (Gradient.validate_eq_ok.mpr
    ⟨⟨rfl, by norm_num⟩, by decide, by norm_num⟩) rfl rfl (by norm_num) smooth (by norm_num) 2⟩
  rcases steps 2 with ⟨s, reached, reached'⟩ | ⟨stopped, _⟩
  · rcases ends unwatched unwatched with ⟨summary, summary', returned, returned'⟩ | ⟨failed, _⟩
    · exact ⟨s, summary, summary', reached, reached', returned, returned',
        ((agree summary summary' returned returned').2.2 2).2⟩
    · obtain ⟨_, returned⟩ := (Downhill.Newton.run_ok_iff (x := .constant 2 1) conforming expands heights
        (Downhill.Newton.validate_eq_ok.mpr (by norm_num)) unwatched).mpr directed
      cases returned.symm.trans failed
  · obtain ⟨_, reached⟩ :=
      (Downhill.Newton.after_ok_iff (x := .constant 2 1) conforming expands heights 2).mpr directed
    cases reached.symm.trans stopped

end Downhill.RandomSubspace
