import Downhill.Proofs.InteriorPoint.Certificate

namespace Downhill.InteriorPoint

variable {α : Type} [Scalar α] {config : Config α} {p : Constrained α} {s s' : MultiplierState α}

/-- What is measured at a state is within both tolerances. -/
def Met (config : Config α) (p : Constrained α) (s : MultiplierState α) : Prop :=
  ∃ eta residual, gapMeasure.value p s = .ok eta ∧ residualMeasure.value p s = .ok residual ∧
    residual ≤ config.epsFeas ∧ eta ≤ config.eps

theorem Reading.gap_measured (r : Reading p s) : gapMeasure.value p s = .ok r.eta :=
  Outcome.bind_eq_ok.mpr ⟨r.values, r.values_eq, r.gap_eq⟩

theorem Reading.residual_measured (r : Reading p s) : residualMeasure.value p s = .ok r.dual.norm := by
  simp only [residualMeasure, Outcome.bind_eq_ok, Outcome.pure_eq_ok]
  exact ⟨r.gradient, r.gradient_eq, r.jacobian, r.jacobian_eq, r.dual, r.dual_eq, rfl⟩

/-- What a step compares with the tolerances is what is measured. -/
theorem Reading.met_iff (r : Reading p s) : Met config p s ↔ r.Converged config := by
  constructor
  · rintro ⟨eta, residual, atGap, atResidual, met⟩
    obtain rfl := Except.ok.inj (r.gap_measured.symm.trans atGap)
    obtain rfl := Except.ok.inj (r.residual_measured.symm.trans atResidual)
    exact met
  · exact fun converged => ⟨r.eta, r.dual.norm, r.gap_measured, r.residual_measured, converged⟩

/-- A step marks its state as finished exactly when the one before met the tolerances. -/
theorem step_finished_iff (unfinished : s.finished = false) (made : (step config p s).outcome = .ok s') :
    s'.finished = true ↔ Met config p s := by
  obtain ⟨r, ⟨converged, rfl⟩ | ⟨apart, _, _, _, _, moves⟩⟩ := step_cases made
  · exact iff_of_true rfl (r.met_iff.mpr converged)
  · rw [moves.finished_eq, unfinished, r.met_iff]
    exact iff_of_false Bool.false_ne_true apart

theorem step_stays (unfinished : s.finished = false) (made : (step config p s).outcome = .ok s')
    (finished : s'.finished = true) : s'.point = s.point ∧ s'.multipliers = s.multipliers := by
  obtain ⟨r, ⟨_, rfl⟩ | ⟨_, _, _, _, _, moves⟩⟩ := step_cases made
  · exact ⟨rfl, rfl⟩
  · rw [moves.finished_eq, unfinished] at finished
    cases finished

theorem measures_congr (point : s'.point = s.point) (multipliers : s'.multipliers = s.multipliers) :
    gapMeasure.value p s' = gapMeasure.value p s ∧
      residualMeasure.value p s' = residualMeasure.value p s := by
  simp only [gapMeasure, residualMeasure, point, multipliers, and_self]

section

variable {ρ : Type} {watch : Watch α ρ} {x : Coords α} {budget : Nat}
  {summary : Summary α (MultiplierState α) (budget + 1)}

theorem started_unfinished : method.finishedAfter config p x () 0 = false := by
  unfold Method.finishedAfter
  split
  · rename_i s source' reached
    obtain ⟨started, _⟩ := Method.after_zero_eq_ok.mp reached
    obtain ⟨_, _, rfl⟩ := start_cases started
    rfl
  · rfl

/-- The series of a run hold the gap and the length of the dual residual at each of its states. -/
theorem recorded (result : method.Returned config p watch x () summary) {i : Nat}
    (early : i ≤ summary.iterations) : ∃ s eta residual, method.after config p x () i = .ok (s, ()) ∧
      gapMeasure.value p s = .ok eta ∧ residualMeasure.value p s = .ok residual ∧
      summary.history.at? "duality_gap" i = some eta ∧
      summary.history.at? "dual_residual" i = some residual := by
  have inside : summary.iterations < budget + 1 := Nat.lt_succ_of_le result.within
  have gaps : ("duality_gap", gapMeasure.value p) ∈ method.tracked p :=
    List.mem_cons_of_mem _ List.mem_cons_self
  have residuals : ("dual_residual", residualMeasure.value p) ∈ method.tracked p :=
    List.mem_cons_of_mem _ (List.mem_cons_of_mem _ List.mem_cons_self)
  obtain ⟨s, _, eta, reached, atGap, gapStands⟩ :=
    (Method.at?_historyAfter result.seen inside gaps).1 i early
  obtain ⟨s', _, residual, same, atResidual, residualStands⟩ :=
    (Method.at?_historyAfter result.seen inside residuals).1 i early
  cases reached.symm.trans same
  exact ⟨s, eta, residual, reached, atGap, atResidual, gapStands, residualStands⟩

/-- The last step of a finished run has left the point and the multipliers. -/
theorem last_stays (result : method.Returned config p watch x () summary) (finished : summary.finished = true)
    {i : Nat} (count : summary.iterations = i + 1) (reached : method.after config p x () i = .ok (s, ())) :
    summary.state.point = s.point ∧ summary.state.multipliers = s.multipliers := by
  obtain ⟨_, last⟩ := result.reached
  rw [count] at last
  obtain ⟨_, _, same, made, _⟩ := Method.after_succ_eq_ok.mp last
  cases reached.symm.trans same
  have before : i < summary.iterations := (Nat.lt_succ_self i).trans_eq count.symm
  have unfinished : s.finished = false :=
    (Method.finishedAfter_eq reached).symm.trans (result.unfinished before)
  exact step_stays unfinished made (result.finished.symm.trans finished)

end

/-- A run is finished exactly when one of its states within the budget met both tolerances. It ends with the
step behind the first such state, which changes neither the point nor the multipliers, so that the gap and the
residual are recorded twice. -/
theorem stop_exact {ρ : Type} (config : Config α) (p : Constrained α) (watch : Watch α ρ) (records : ρ)
    (x : Coords α) (budget : Nat) (summary : Summary α (MultiplierState α) (budget + 1))
    (returned : (method.run config p watch () records x budget).1 = .ok summary) :
    let k := summary.iterations
    let meets := method.HoldsAfter config p x () (Met config p)
    method.after config p x () k = .ok (summary.state, ()) ∧
    (summary.finished = true ↔ ∃ i < budget, i ≤ k ∧ meets i) ∧
    (summary.finished = true → ∃ i < budget, ∃ s eta residual, k = i + 1 ∧
      method.after config p x () i = .ok (s, ()) ∧ Met config p s ∧ (∀ j < i, ¬ meets j) ∧
      summary.state.point = s.point ∧ summary.state.multipliers = s.multipliers ∧
      summary.history.at? "duality_gap" i = some eta ∧ summary.history.at? "duality_gap" k = some eta ∧
      summary.history.at? "dual_residual" i = some residual ∧
      summary.history.at? "dual_residual" k = some residual ∧
      ∀ j < i, ∃ g r, summary.history.at? "duality_gap" j = some g ∧
        summary.history.at? "dual_residual" j = some r ∧ ¬ (r ≤ config.epsFeas ∧ g ≤ config.eps)) := by
  intro k meets
  have result := Method.run_returned returned
  obtain ⟨_, last⟩ := result.reached
  have marks : ∀ (drawn : Unit) (s s' : MultiplierState α), method.finished s = false →
      (method.step config p drawn s).outcome = .ok s' → (method.finished s' = true ↔ Met config p s) :=
    fun _ _ _ unfinished made => step_finished_iff unfinished made
  refine ⟨last, result.finished_iff marks started_unfinished, fun finished => ?_⟩
  obtain ⟨i, count, done, early⟩ := result.first_done marks started_unfinished finished
  have before : i < k := (Nat.lt_succ_self i).trans_eq count.symm
  obtain ⟨s, eta, residual, reached, atGap, atResidual, gapStands, residualStands⟩ :=
    recorded result before.le
  have met : Met config p s := (Method.holdsAfter_iff reached).mp done
  obtain ⟨point, multipliers⟩ := last_stays result finished count reached
  -- Nothing that is measured has changed.
  obtain ⟨s', eta', residual', reached', atGap', atResidual', gapStands', residualStands'⟩ :=
    recorded result le_rfl
  cases last.symm.trans reached'
  obtain ⟨gapKept, residualKept⟩ := measures_congr point multipliers
  obtain rfl := Except.ok.inj (atGap'.symm.trans (gapKept.trans atGap))
  obtain rfl := Except.ok.inj (atResidual'.symm.trans (residualKept.trans atResidual))
  refine ⟨i, before.trans_le result.within, s, eta', residual', count, reached, met, early, point,
    multipliers, gapStands, gapStands', residualStands, residualStands', fun j earlier => ?_⟩
  obtain ⟨s'', g, r, passed, atG, atR, gStands, rStands⟩ := recorded result (earlier.trans before).le
  exact ⟨g, r, gStands, rStands, fun within =>
    early j earlier ((Method.holdsAfter_iff passed).mpr ⟨g, r, atG, atR, within⟩)⟩

/-- A run in a box records the gap and the residual of the state that its first step leads to twice, and those
of its start, which meet no tolerance, once. -/
theorem stop_exact_boxed : ∃ summary eta residual first r,
    (method.run tight (boxed 1) (.none : Watch ℝ Unit) () () (.zeros 1) 4).1 = .ok summary ∧
      summary.finished = true ∧ summary.iterations = 2 ∧ summary.state.point = advanced.point ∧
      summary.history.at? "duality_gap" 1 = some eta ∧ summary.history.at? "duality_gap" 2 = some eta ∧
      summary.history.at? "dual_residual" 1 = some residual ∧
      summary.history.at? "dual_residual" 2 = some residual ∧
      summary.history.at? "duality_gap" 0 = some first ∧ summary.history.at? "dual_residual" 0 = some r ∧
      ¬ (r ≤ 0.1 ∧ first ≤ 0.1) := by
  obtain ⟨summary, returned, finished, count, state⟩ := run_boxed
  obtain ⟨_, _, stops⟩ := stop_exact tight (boxed 1) .none () (.zeros 1) 4 summary returned
  obtain ⟨i, _, s, eta, residual, last, _, _, _, _, _, gapBefore, gapLast, residualBefore, residualLast, earlier⟩ :=
    stops finished
  obtain rfl : i = 1 := Nat.succ.inj (last.symm.trans count)
  rw [count] at gapLast residualLast
  obtain ⟨first, r, gapFirst, residualFirst, apart⟩ := earlier 0 Nat.zero_lt_one
  exact ⟨summary, eta, residual, first, r, returned, finished, count, state ▸ rfl, gapBefore, gapLast,
    residualBefore, residualLast, gapFirst, residualFirst, apart⟩

end Downhill.InteriorPoint
