import Downhill.Proofs.Run.Semantics

namespace Downhill.Method

variable {α P C S D σ ρ : Type} [Scalar α] {m : Method α P C S D σ} {config : C} {problem : P}
  {watch : Watch α ρ} {x : Coords α} {source : σ} {records : ρ} {budget : Nat}

theorem drawless_store {places : Nat} (h : History α places) : (m.store config watch h).Drawless := by
  unfold store
  split
  · exact fun _ => rfl
  · exact Running.Drawless.bind (Running.drawless_lift _) fun _ => Running.drawless_store _ _ _

theorem drawless_report {places : Nat} (done : Nat) (v : α) (h : History α places) :
    (m.report config watch done v h).Drawless := by
  unfold report
  split
  · exact Running.Drawless.bind (Running.drawless_notes _) fun _ => drawless_store h
  · exact fun _ => rfl

variable (m config problem watch x source) in
/-- The summary is that of the last state that the run comes to, with the series up to there. -/
structure Returned (summary : Summary α S (budget + 1)) : Prop where
  last : summary.iterations = m.lastIndex config problem x source budget
  reached : ∃ source', m.after config problem x source summary.iterations = .ok (summary.state, source')
  seen : m.historyAfter config problem watch x source (budget + 1) summary.iterations = .ok summary.history
  finished : summary.finished = m.finished summary.state

theorem iterations_returned {left i : Nat} (whole : i + left = budget) {s : S} {h : History α (budget + 1)}
    {l l' : Ledger α σ ρ} {summary : Summary α S (budget + 1)}
    (unfinished : ∀ j < i, m.finishedAfter config problem x source j = false)
    (reached : m.after config problem x source i = .ok (s, l.source))
    (seen : m.historyAfter config problem watch x source (budget + 1) i = .ok h)
    (ended : (m.iterations config problem watch left i s h).onLedger l = (.ok summary, l')) :
    m.Returned config problem watch x source summary := by
  -- On the iterations left; the ledger carries the source of the states so far.
  induction left generalizing i s h l with
  | zero =>
    cases ended
    exact ⟨(lastIndex_eq whole.le unfinished (Or.inr whole)).symm, ⟨_, reached⟩, seen, rfl⟩
  | succ left ih =>
    have inside : i ≤ budget := by omega
    have here := finishedAfter_eq reached
    rw [iterations] at ended
    by_cases finished : m.finished s = true
    · rw [if_pos finished, Running.onLedger_bind_ok (Running.onLedger_notes _ l)] at ended
      cases ended
      exact ⟨(lastIndex_eq inside unfinished (Or.inl (here.trans finished))).symm, ⟨_, reached⟩, seen, rfl⟩
    rw [if_neg finished, Running.onLedger_bind_ok (Running.onLedger_draw _ l)] at ended
    simp only [Running.onLedger_bind_eq_ok] at ended
    obtain ⟨s', between, made, _, waited, synchronized, ⟨v, h'⟩, looked, observed, _, told, reported, rest⟩ :=
      ended
    have next : m.after config problem x source (i + 1) = .ok (s', told.source) := by
      refine after_succ_eq_ok.mpr ⟨s, l.source, reached, Running.outcome_of_onLedger_lift made, ?_⟩
      rw [(drawless_report _ _ _).source_eq reported, (Running.drawless_lift _).source_eq observed,
        Running.drawless_synchronize.source_eq synchronized, (Running.drawless_lift _).source_eq made]
    have sight := historyAfter_succ_eq_ok.mpr ⟨h, s', _, v, seen, next,
      Outcome.relabelled_eq_ok.mp (Running.outcome_of_onLedger_lift observed)⟩
    have still : ∀ j < i + 1, m.finishedAfter config problem x source j = false :=
      Nat.forall_lt_succ_right.mpr ⟨unfinished, here.trans (Bool.eq_false_iff.mpr finished)⟩
    exact ih (by omega) still next sight rest

/-- A run that returns has come to its last state, however it was watched. -/
theorem run_returned {summary : Summary α S (budget + 1)}
    (returned : (m.run config problem watch source records x budget).1 = .ok summary) :
    m.Returned config problem watch x source summary := by
  have ended : (m.running config problem watch x budget).onLedger ⟨source, records, 0, #[]⟩ =
      (.ok summary, (m.run config problem watch source records x budget).2) := Prod.ext returned rfl
  simp only [running, Running.onLedger_bind_eq_ok] at ended
  obtain ⟨_, checked, valid, s, begun, started, ⟨v, h⟩, looked, observed, _, waited, synchronized, last,
    final, made, _, _, _, done⟩ := ended
  cases done
  have sources : waited.source = source := by
    rw [Running.drawless_synchronize.source_eq synchronized, (Running.drawless_lift _).source_eq observed,
      (Running.drawless_lift _).source_eq started, (Running.drawless_lift _).source_eq valid]
  have reached : m.after config problem x source 0 = .ok (s, waited.source) :=
    after_zero_eq_ok.mpr ⟨Running.outcome_of_onLedger_lift started, sources⟩
  have seen : m.historyAfter config problem watch x source (budget + 1) 0 = .ok h :=
    historyAfter_zero_eq_ok.mpr ⟨s, _, v, reached,
      Outcome.relabelled_eq_ok.mp (Running.outcome_of_onLedger_lift observed)⟩
  exact iterations_returned (Nat.zero_add budget) (fun _ early => absurd early (Nat.not_lt_zero _)) reached
    seen made

namespace Returned

variable {summary : Summary α S (budget + 1)}

theorem unfinished (result : m.Returned config problem watch x source summary) {i : Nat}
    (early : i < summary.iterations) : m.finishedAfter config problem x source i = false :=
  (m.lastIndex_spec config problem x source budget).2.1 i (result.last ▸ early)

/-- What the start establishes and every step from an unfinished state keeps holds of the state
returned. -/
theorem keeps (result : m.Returned config problem watch x source summary) {Holds : S → Prop}
    (initial : ∀ s, (m.start config problem x).outcome = .ok s → Holds s)
    (keeps : ∀ drawn s s', m.finished s = false → Holds s →
      (m.step config problem drawn s).outcome = .ok s' → Holds s') : Holds summary.state := by
  have all : ∀ i ≤ summary.iterations, ∀ s source', m.after config problem x source i = .ok (s, source') →
      Holds s := by
    intro i
    induction i with
    | zero => exact fun _ s source' reached => initial s (after_zero_eq_ok.mp reached).1
    | succ i ih =>
      intro early s' source' reached
      obtain ⟨s, between, before, made, _⟩ := after_succ_eq_ok.mp reached
      have still : m.finished s = false := (finishedAfter_eq before).symm.trans (result.unfinished early)
      exact keeps _ s s' still (ih (Nat.le_of_succ_le early) s between before) made
  obtain ⟨source', last⟩ := result.reached
  exact all summary.iterations le_rfl summary.state source' last

/-- What is measured at a state on the way stands in its series. -/
theorem at?_of_reached (result : m.Returned config problem watch x source summary) {name : String}
    {value : S → Checked α} (member : (name, value) ∈ m.tracked problem) {i : Nat} (early : i ≤ summary.iterations)
    {s : S} {between : σ} (reached : m.after config problem x source i = .ok (s, between)) {v : α}
    (found : value s = .ok v) : summary.history.at? name i = some v := by
  have inside : summary.iterations < budget + 1 :=
    Nat.lt_succ_of_le (result.last ▸ (m.lastIndex_spec config problem x source budget).1)
  obtain ⟨s', between', w, reached', found', stands⟩ := (at?_historyAfter result.seen inside member).1 i early
  cases reached.symm.trans reached'
  rw [stands, Except.ok.inj (found.symm.trans found')]

theorem within (result : m.Returned config problem watch x source summary) : summary.iterations ≤ budget :=
  result.last ▸ (m.lastIndex_spec config problem x source budget).1

theorem finished_eq (result : m.Returned config problem watch x source summary) :
    summary.finished = m.finishedAfter config problem x source summary.iterations := by
  obtain ⟨source', last⟩ := result.reached
  rw [result.finished, finishedAfter_eq last]

theorem finished_or_whole (result : m.Returned config problem watch x source summary) :
    summary.finished = true ∨ summary.iterations = budget := by
  rw [result.finished_eq, result.last]
  exact (m.lastIndex_spec config problem x source budget).2.2

section

variable {Done : S → Prop}
  (marks : ∀ drawn s s', m.finished s = false → (m.step config problem drawn s).outcome = .ok s' →
    (m.finished s' = true ↔ Done s))

include marks

theorem finishedAfter_succ_iff (result : m.Returned config problem watch x source summary) {i : Nat}
    (early : i < summary.iterations) : m.finishedAfter config problem x source (i + 1) = true ↔
      m.HoldsAfter config problem x source Done i := by
  obtain ⟨_, last⟩ := result.reached
  obtain ⟨s', source', reached⟩ := after_ok_of_le last (Nat.succ_le_of_lt early)
  obtain ⟨s, between, before, made, _⟩ := after_succ_eq_ok.mp reached
  have still : m.finished s = false := (finishedAfter_eq before).symm.trans (result.unfinished early)
  rw [finishedAfter_eq reached, holdsAfter_iff before]
  exact marks _ s s' still made

/-- A finished run has ended one step behind the first of its states that was done. -/
theorem first_done (result : m.Returned config problem watch x source summary)
    (initial : m.finishedAfter config problem x source 0 = false) (finished : summary.finished = true) :
    ∃ i, summary.iterations = i + 1 ∧ m.HoldsAfter config problem x source Done i ∧
      ∀ j < i, ¬ m.HoldsAfter config problem x source Done j := by
  rw [result.finished_eq] at finished
  cases count : summary.iterations with
  | zero =>
    rw [count, initial] at finished
    cases finished
  | succ i =>
    have early : ∀ j ≤ i, j < summary.iterations := fun j before =>
      (Nat.lt_succ_of_le before).trans_eq count.symm
    rw [count] at finished
    have done := (result.finishedAfter_succ_iff marks (early i le_rfl)).mp finished
    refine ⟨i, rfl, done, fun j before other => ?_⟩
    have marked := (result.finishedAfter_succ_iff marks (early j before.le)).mpr other
    cases (result.unfinished (early (j + 1) before)).symm.trans marked

/-- A run is finished exactly when one of its states within the budget was done. -/
theorem finished_iff (result : m.Returned config problem watch x source summary)
    (initial : m.finishedAfter config problem x source 0 = false) : summary.finished = true ↔
      ∃ i < budget, i ≤ summary.iterations ∧ m.HoldsAfter config problem x source Done i := by
  constructor
  · intro finished
    obtain ⟨i, count, done, _⟩ := result.first_done marks initial finished
    have early : i < summary.iterations := (Nat.lt_succ_self i).trans_eq count.symm
    exact ⟨i, early.trans_le result.within, early.le, done⟩
  · rintro ⟨i, inside, _, done⟩
    rcases result.finished_or_whole with finished | whole
    · exact finished
    · -- The next state is marked, so it is the last one.
      have before : i < summary.iterations := inside.trans_eq whole.symm
      have marked := (result.finishedAfter_succ_iff marks before).mpr done
      rcases (Nat.succ_le_of_lt before).lt_or_eq with inner | last
      · cases (result.unfinished inner).symm.trans marked
      · rw [result.finished_eq, ← last]
        exact marked

end

end Returned

end Downhill.Method
