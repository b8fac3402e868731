import Downhill.Proofs.InteriorPoint.Merit
import Downhill.Proofs.Run.Return

namespace Downhill.Method

variable {α P C S D σ ρ : Type} [Scalar α]

/-- How the part of a run that is left after `i` iterations has to end: with what stops the method on
the way to its last state, or with that state, the series up to it, and one wait for each iteration. -/
def Follows (m : Method α P C S D σ) (config : C) (problem : P) (watch : Watch α ρ) (x : Coords α)
    (source : σ) (records : ρ) {budget : Nat} (i waits : Nat)
    (result : Except (Stop α) (Summary α S (budget + 1)) × Ledger α σ ρ) : Prop :=
  let k := m.lastIndex config problem x source budget
  (∀ stop, m.after config problem x source k = .error stop → result.1 = .error stop) ∧
    ∀ s source', m.after config problem x source k = .ok (s, source') →
      ∃ h held events, m.historyAfter config problem watch x source (budget + 1) k = .ok h ∧
        m.recordsAfter config problem watch x source records (budget + 1) k = .ok held ∧
        result = (.ok ⟨s, h, k, m.finished s⟩, ⟨source', held, waits + (k - i), events⟩)

variable {m : Method α P C S D σ} {config : C} {problem : P} {watch : Watch α ρ} {x : Coords α}
  {source : σ} {records : ρ} {budget : Nat}

theorem follows_of_stopped {i j waits : Nat} {stop : Stop α}
    {result : Except (Stop α) (Summary α S (budget + 1)) × Ledger α σ ρ}
    (stopped : m.after config problem x source j = .error stop)
    (before : j ≤ m.lastIndex config problem x source budget) (ended : result.1 = .error stop) :
    m.Follows config problem watch x source records i waits result := by
  have last := after_error_mono stopped before
  constructor
  · intro other same
    rw [last] at same
    cases same
    exact ended
  · intro s source' same
    rw [last] at same
    cases same

theorem follows_of_ended {i waits : Nat} {s : S} {source' : σ} {held : ρ} {h : History α (budget + 1)}
    (events : Array (Event α)) (last : m.lastIndex config problem x source budget = i)
    (reached : m.after config problem x source i = .ok (s, source'))
    (seen : m.historyAfter config problem watch x source (budget + 1) i = .ok h)
    (kept : m.recordsAfter config problem watch x source records (budget + 1) i = .ok held) :
    m.Follows config problem watch x source records i waits
      (.ok ⟨s, h, i, m.finished s⟩, ⟨source', held, waits, events⟩) := by
  unfold Follows
  simp only [last, reached, seen, kept]
  refine ⟨nofun, fun other between same => ?_⟩
  cases same
  exact ⟨h, held, events, rfl, rfl, by rw [Nat.sub_self]; rfl⟩

/-- One iteration more has waited once more. -/
theorem follows_of_next {i waits : Nat}
    {result : Except (Stop α) (Summary α S (budget + 1)) × Ledger α σ ρ}
    (later : i + 1 ≤ m.lastIndex config problem x source budget)
    (rest : m.Follows config problem watch x source records (i + 1) (waits + 1) result) :
    m.Follows config problem watch x source records i waits result := by
  refine ⟨rest.1, fun s source' reached => ?_⟩
  obtain ⟨h, held, events, seen, kept, same⟩ := rest.2 s source' reached
  have count : waits + 1 + (m.lastIndex config problem x source budget - (i + 1)) =
      waits + (m.lastIndex config problem x source budget - i) := by omega
  exact ⟨h, held, events, seen, kept, count ▸ same⟩

/-- An iteration that nothing stops: its draw and its wait are on the ledger, and the iterations left
go on from its state and the series with what was observed there. -/
theorem iterations_next (left : Nat) {i : Nat} {s s' : S} {h h' : History α (budget + 1)} {l : Ledger α σ ρ}
    {v : α} {held : ρ} (unfinished : ¬ m.finished s = true)
    (made : (m.step config problem (m.draw config l.source).1 s).outcome = .ok s')
    (observed : m.observe problem (watch.clock (i + 1)) (i + 1) s' h = .ok (v, h'))
    (before : m.recordsAfter config problem watch x source records (budget + 1) i = .ok l.records)
    (seen : m.historyAfter config problem watch x source (budget + 1) (i + 1) = .ok h')
    (kept : m.recordsAfter config problem watch x source records (budget + 1) (i + 1) = .ok held) :
    ∃ events, (m.iterations config problem watch (left + 1) i s h).onLedger l =
      (m.iterations config problem watch left (i + 1) s' h').onLedger
        ⟨(m.draw config l.source).2, held, l.waits + 1, events⟩ := by
  rw [iterations, if_neg unfinished, Running.onLedger_bind_ok (Running.onLedger_draw _ l),
    Running.onLedger_bind_ok (by rw [Running.onLedger_lift, made]),
    Running.onLedger_bind_ok (Running.onLedger_synchronize _),
    Running.onLedger_bind_ok (by rw [Running.onLedger_lift, observed]; rfl)]
  dsimp only
  obtain ⟨events, reported⟩ := onLedger_report
    (l := ⟨(m.draw config l.source).2, l.records, l.waits + 1, _⟩) v before seen kept
  exact ⟨events, by rw [Running.onLedger_bind_ok reported]⟩

/-- The iterations left after so many lead to the last state that the run comes to, with the series
that belong to it, or end with what stops the method before. -/
theorem iterations_follow (undisturbed : m.Undisturbed config problem watch x source records budget)
    {left i : Nat} (whole : i + left = budget) {s : S} {h : History α (budget + 1)} {l : Ledger α σ ρ}
    (unfinished : ∀ j < i, m.finishedAfter config problem x source j = false)
    (reached : m.after config problem x source i = .ok (s, l.source))
    (seen : m.historyAfter config problem watch x source (budget + 1) i = .ok h)
    (held : m.recordsAfter config problem watch x source records (budget + 1) i = .ok l.records) :
    m.Follows config problem watch x source records i l.waits
      ((m.iterations config problem watch left i s h).onLedger l) := by
  -- On the iterations left; the ledger carries the source and the records of the states so far.
  induction left generalizing i s h l with
  | zero =>
    have inside : i ≤ budget := by omega
    have last := lastIndex_eq inside unfinished (Or.inr whole)
    exact follows_of_ended l.events last reached seen held
  | succ left ih =>
    have inside : i ≤ budget := by omega
    have here := finishedAfter_eq reached
    by_cases finished : m.finished s = true
    · have last := lastIndex_eq inside unfinished (Or.inl (here.trans finished))
      rw [iterations, if_pos finished, Running.onLedger_bind_ok (Running.onLedger_notes _ l)]
      exact follows_of_ended _ last reached seen held
    have still : ∀ j < i + 1, m.finishedAfter config problem x source j = false := by
      intro j early
      rcases Nat.lt_succ_iff_lt_or_eq.mp early with before | rfl
      · exact unfinished j before
      · exact here.trans (Bool.eq_false_iff.mpr finished)
    have later : i + 1 ≤ m.lastIndex config problem x source budget :=
      lt_lastIndex (by omega) fun j early => still j (Nat.lt_succ_of_le early)
    cases made : (m.step config problem (m.draw config l.source).1 s).outcome with
    | error stop =>
      have stopped : m.after config problem x source (i + 1) = .error stop := by
        simp only [after, reached, bind, Except.bind, made]
      refine follows_of_stopped stopped later ?_
      rw [iterations, if_neg finished, Running.onLedger_bind_ok (Running.onLedger_draw _ l),
        Running.onLedger_bind_error (by rw [Running.onLedger_lift, made])]
    | ok s' =>
      have next := after_succ_eq_ok.mpr ⟨s, l.source, reached, made, rfl⟩
      obtain ⟨v, h', observed⟩ := observe_ok (undisturbed.measured (i + 1) later s' _ next)
        (watch.clock (i + 1)) (i + 1) h
      have sight := historyAfter_succ_eq_ok.mpr ⟨h, s', _, v, seen, next, observed⟩
      obtain ⟨held', kept⟩ := undisturbed.reported (i + 1) later h' sight
      obtain ⟨events, goesOn⟩ := iterations_next left finished made observed held sight kept
      rw [goesOn]
      exact follows_of_next later (ih (by omega) still next sight kept)

/-- A run whose configuration is refused ends with the refusal. -/
theorem run_of_refused {why : Failure α} (refused : m.schema.validate config = .error why) :
    (m.run config problem watch source records x budget).1 = .error (.failure why) := by
  change ((m.running config problem watch x budget).onLedger ⟨source, records, 0, #[]⟩).1 = _
  rw [running, Running.onLedger_bind_error (by rw [Running.onLedger_lift, refused]; rfl)]

/-- A run up to its first iteration: the start has noted its events and has been observed, and the device has been
waited for once. -/
theorem run_starts {s : S} {v : α} {h : History α (budget + 1)}
    (valid : m.schema.validate config = .ok ()) (started : (m.start config problem x).outcome = .ok s)
    (observed : m.observe problem 0 0 s History.empty = .ok (v, h)) :
    m.run config problem watch source records x budget = (do
      let summary ← m.iterations config problem watch budget 0 s h
      m.store config watch summary.history
      return summary : Running α σ ρ _).onLedger
        ⟨source, records, 1, (#[] : Array (Event α)) ++ (m.start config problem x).events⟩ := by
  have unfolded : m.run config problem watch source records x budget =
      (m.running config problem watch x budget).onLedger ⟨source, records, 0, #[]⟩ := rfl
  rw [running, Running.onLedger_bind_ok (by rw [Running.onLedger_except, valid]; rfl),
    Running.onLedger_bind_ok (by rw [Running.onLedger_lift, started]),
    Running.onLedger_bind_ok (by rw [Running.onLedger_checked, observed]; rfl),
    Running.onLedger_bind_ok (Running.onLedger_synchronize _)] at unfolded
  exact unfolded

/-- A run whose start fails ends with that failure. -/
theorem run_of_stopped {stop : Stop α} (valid : m.schema.validate config = .ok ())
    (stopped : (m.start config problem x).outcome = .error stop) :
    (m.run config problem watch source records x budget).1 = .error stop := by
  change ((m.running config problem watch x budget).onLedger ⟨source, records, 0, #[]⟩).1 = _
  rw [running, Running.onLedger_bind_ok (by rw [Running.onLedger_lift, valid]; rfl),
    Running.onLedger_bind_error (by rw [Running.onLedger_lift, stopped])]

/-- A run ends as the states say, and with one wait before the first iteration. -/
theorem run_follows (undisturbed : m.Undisturbed config problem watch x source records budget)
    (valid : m.schema.validate config = .ok ()) :
    let k := m.lastIndex config problem x source budget
    let result := m.run config problem watch source records x budget
    (∀ stop, m.after config problem x source k = .error stop → result.1 = .error stop) ∧
      ∀ s source', m.after config problem x source k = .ok (s, source') →
        ∃ h, m.historyAfter config problem watch x source (budget + 1) k = .ok h ∧
          result.1 = .ok ⟨s, h, k, m.finished s⟩ ∧ result.2.source = source' ∧
          result.2.waits = k + 1 := by
  intro k result
  cases started : (m.start config problem x).outcome with
  | error stop =>
    have first : m.after config problem x source 0 = .error stop := by
      simp only [after, started, bind, Except.bind]
    rw [after_error_mono first (Nat.zero_le k)]
    refine ⟨fun other same => ?_, fun _ _ same => ?_⟩
    · exact Except.error.inj same ▸ run_of_stopped valid started
    · cases same
  | ok s =>
    have reached : m.after config problem x source 0 = .ok (s, source) :=
      after_zero_eq_ok.mpr ⟨started, rfl⟩
    obtain ⟨v, h, observed⟩ := observe_ok (undisturbed.measured 0 (Nat.zero_le _) s source reached) 0 0
      (History.empty : History α (budget + 1))
    have seen : m.historyAfter config problem watch x source (budget + 1) 0 = .ok h :=
      historyAfter_zero_eq_ok.mpr ⟨s, source, v, reached, observed⟩
    let before := (#[] : Array (Event α)) ++ (m.start config problem x).events
    have goesOn : result = _ := run_starts valid started observed
    have follows := iterations_follow (l := ⟨source, records, 1, before⟩) undisturbed
      (Nat.zero_add budget) (fun _ early => absurd early (Nat.not_lt_zero _)) reached seen rfl
    refine ⟨fun stop stopped => ?_, fun s' source' reachedLast => ?_⟩
    · have ended := follows.1 stop stopped
      rw [goesOn, Running.onLedger_bind_error (Prod.ext ended rfl)]
    · obtain ⟨h', held, events, seenLast, kept, ended⟩ := follows.2 s' source' reachedLast
      obtain ⟨final, stored⟩ := undisturbed.stored h' held seenLast kept
      obtain ⟨_, storing⟩ := onLedger_store (l := ⟨source', held, 1 + (k - 0), events⟩) stored
      rw [Running.onLedger_bind_ok ended] at goesOn
      dsimp only at goesOn
      rw [Running.onLedger_bind_ok storing] at goesOn
      rw [goesOn]
      exact ⟨h', seenLast, rfl, rfl, Nat.add_comm 1 k⟩

/-- What the start establishes and every step keeps holds of the state that a run returns. -/
theorem run_keeps (Holds : S → Prop)
    (initial : ∀ s, (m.start config problem x).outcome = .ok s → Holds s)
    (keeps : ∀ drawn s s', m.finished s = false → Holds s →
      (m.step config problem drawn s).outcome = .ok s' → Holds s')
    {summary : Summary α S (budget + 1)}
    (returned : (m.run config problem watch source records x budget).1 = .ok summary) :
    Holds summary.state ∧ summary.finished = m.finished summary.state := by
  have result := run_returned returned
  exact ⟨result.keeps initial keeps, result.finished⟩

theorem valid_of_run {summary : Summary α S (budget + 1)}
    (returned : (m.run config problem watch source records x budget).1 = .ok summary) :
    m.schema.validate config = .ok () := by
  cases checked : m.schema.validate config with
  | ok done => rfl
  | error why =>
    rw [run_of_refused checked] at returned
    cases returned

/-- A run returns the state after `k` steps, where `k` leads to the first finished state within the budget or
is the whole budget, or the first failure before. Its series hold what is measured at the states up to that
one, in their order, and zeros behind them. -/
theorem run_follows_states (m : Method α P C S D σ) (config : C) (problem : P) (watch : Watch α ρ)
    (x : Coords α) (source : σ) (records : ρ) (budget : Nat)
    (undisturbed : m.Undisturbed config problem watch x source records budget) :
    let k := m.lastIndex config problem x source budget
    let result := m.run config problem watch source records x budget
    (∀ why, m.schema.validate config = .error why → result.1 = .error (.failure why)) ∧
    (m.schema.validate config = .ok () →
      (∀ stop, m.after config problem x source k = .error stop → result.1 = .error stop) ∧
      ∀ s source', m.after config problem x source k = .ok (s, source') →
        ∃ summary, result.1 = .ok summary ∧ summary.state = s ∧ summary.iterations = k ∧
          summary.finished = m.finished s ∧ result.2.source = source' ∧ result.2.waits = k + 1 ∧
          (∀ name values, summary.history.series.find? name = some values →
            values.toList.length = budget + 1) ∧
          (∃ v, m.objectiveAt problem s = .ok v ∧ summary.finalValue = some v) ∧
          ∀ name value, (name, value) ∈ m.tracked problem →
            (∀ i ≤ k, ∃ s' between v, m.after config problem x source i = .ok (s', between) ∧
              value s' = .ok v ∧ summary.history.at? name i = some v) ∧
            ∀ i, k < i → i ≤ budget → summary.history.at? name i = some 0) := by
  intro k result
  refine ⟨fun why refused => run_of_refused refused, fun valid => ?_⟩
  obtain ⟨stopped, ended⟩ := run_follows undisturbed valid
  refine ⟨stopped, fun s source' reached => ?_⟩
  obtain ⟨h, seen, returned, sourceLast, waits⟩ := ended s source' reached
  obtain ⟨within, _⟩ := m.lastIndex_spec config problem x source budget
  have inside : k < budget + 1 := Nat.lt_succ_of_le within
  refine ⟨_, returned, rfl, rfl, rfl, sourceLast, waits, fun _ values _ => values.length_toList, ?_,
    fun name value member => ?_⟩
  · obtain ⟨s', between, v, same, atState, stands⟩ :=
      (at?_historyAfter seen inside List.mem_cons_self).1 k (Nat.le_refl k)
    cases reached.symm.trans same
    exact ⟨v, atState, stands⟩
  · obtain ⟨values, zeros⟩ := at?_historyAfter seen inside member
    exact ⟨values, fun i late bound => zeros i late (Nat.lt_succ_of_le bound)⟩

/-- An interior-point run of four iterations at most ends after two, with zeros behind them. -/
theorem interior_follows_states :
    let run := InteriorPoint.method.run InteriorPoint.tight (InteriorPoint.boxed 1) (.none : Watch ℝ Unit) () ()
      (.zeros 1) 4
    ∃ summary gap, run.1 = .ok summary ∧ summary.iterations = 2 ∧ summary.finished = true ∧
      summary.state = { InteriorPoint.advanced with finished := true } ∧ run.2.waits = 3 ∧
      InteriorPoint.gapMeasure.value (InteriorPoint.boxed 1) InteriorPoint.advanced = .ok gap ∧
      summary.history.at? "duality_gap" 1 = some gap ∧
      summary.history.at? "duality_gap" 3 = some 0 ∧ summary.history.at? "duality_gap" 4 = some 0 := by
  intro run
  have calm : InteriorPoint.method.Undisturbed InteriorPoint.tight (InteriorPoint.boxed 1) (.none : Watch ℝ Unit)
      (.zeros 1) () () 4 :=
    InteriorPoint.undisturbed rfl InteriorPoint.tight_valid (Objective.halfSquare_conforming 1)
      (InteriorPoint.boxed_conforming 1)
  have last := InteriorPoint.lastIndex_tight 4 (by decide)
  obtain ⟨_, ended⟩ := (run_follows_states _ _ _ (.none : Watch ℝ Unit) _ () () 4 calm).2 InteriorPoint.tight_valid
  obtain ⟨summary, returned, state, count, finished, _, waits, _, _, series⟩ :=
    ended _ () (last ▸ InteriorPoint.after_advanced)
  have tracked : ("duality_gap", InteriorPoint.gapMeasure.value (InteriorPoint.boxed 1)) ∈
      InteriorPoint.method.tracked (InteriorPoint.boxed 1) := List.mem_cons_of_mem _ List.mem_cons_self
  obtain ⟨values, zeros⟩ := series _ _ tracked
  rw [last] at values zeros
  obtain ⟨s, _, gap, reached, measured, stands⟩ := values 1 (by decide)
  cases InteriorPoint.after_tight.symm.trans reached
  exact ⟨summary, gap, returned, count.trans last, finished, state, waits.trans (congrArg Nat.succ last), measured,
    stands, zeros 3 (by decide) (by decide), zeros 4 (by decide) (by decide)⟩

end Downhill.Method
