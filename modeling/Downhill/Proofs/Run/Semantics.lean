import Mathlib
import Downhill.Proofs.Problems
import Downhill.Proofs.Run.Ledger
import Downhill.Proofs.Run.Series
import Downhill.Proofs.Run.Trajectory

namespace Downhill.Method

variable {α P C S D σ ρ : Type}

/-- The measured values stand under the names of their measures. -/
theorem mem_measured {problem : P} {s : S} {measures : List (Measure α P S)} {others : List (String × α)}
    (made : measures.mapM (fun measure => do return (measure.name, ← measure.value problem s)) =
      (.ok others : Checked _)) :
    others.map Prod.fst = measures.map Measure.name ∧
      ∀ measure ∈ measures, ∃ v, measure.value problem s = .ok v ∧ (measure.name, v) ∈ others := by
  induction measures generalizing others with
  | nil =>
    cases made
    exact ⟨rfl, nofun⟩
  | cons first rest ih =>
    obtain ⟨entry, atFirst, tail, atRest, rfl⟩ := Outcome.mapM_cons_eq_ok.mp made
    obtain ⟨v, value, same⟩ := Outcome.bind_eq_ok.mp atFirst
    cases same
    obtain ⟨names, values⟩ := ih atRest
    refine ⟨by rw [List.map_cons, List.map_cons, names], fun measure member => ?_⟩
    rcases List.mem_cons.mp member with rfl | later
    · exact ⟨v, value, List.mem_cons_self⟩
    · obtain ⟨w, atMeasure, found⟩ := values measure later
      exact ⟨w, atMeasure, List.mem_cons_of_mem _ found⟩

theorem measured_ok {problem : P} {s : S} {measures : List (Measure α P S)}
    (all : ∀ measure ∈ measures, ∃ v, measure.value problem s = .ok v) :
    ∃ others, measures.mapM (fun measure => do return (measure.name, ← measure.value problem s)) =
      (.ok others : Checked (List (String × α))) := by
  induction measures with
  | nil => exact ⟨[], rfl⟩
  | cons first rest ih =>
    obtain ⟨v, value⟩ := all first List.mem_cons_self
    obtain ⟨others, tail⟩ := ih fun measure later => all measure (List.mem_cons_of_mem _ later)
    exact ⟨(first.name, v) :: others, Outcome.mapM_cons_eq_ok.mpr ⟨_, by rw [value]; rfl, _, tail, rfl⟩⟩

variable [Scalar α]

section Definitions

variable (m : Method α P C S D σ) (config : C) (problem : P) (watch : Watch α ρ) (x : Coords α)
  (source : σ) (records : ρ)

/-- What is measured at a state, by the names of the series, the objective first. -/
def tracked : List (String × (S → Checked α)) :=
  (History.objectiveName, m.objectiveAt problem) ::
    m.measures.map fun measure => (measure.name, measure.value problem)

/-- The series once the first states, up to the one after so many steps, have been looked at. -/
def historyAfter (places : Nat) : Nat → Except (Stop α) (History α places)
  | 0 => do
    let (s, _) ← m.after config problem x source 0
    let (_, h) ← (m.observe problem 0 0 s History.empty).mapError .fault
    return h
  | i + 1 => do
    let h ← historyAfter places i
    let (s, _) ← m.after config problem x source (i + 1)
    let (_, h) ← (m.observe problem (watch.clock (i + 1)) (i + 1) s h).mapError .fault
    return h

/-- What the recorder holds once it has been given the series, if it does not fail. -/
def recorded {places : Nat} (h : History α places) (records : ρ) : Except (Failure α) ρ :=
  match watch.recorder with
  | none => .ok records
  | some r => do
    let settings ← m.schema.toSettings config
    let stored := r.store h settings records
    return (fun _ => stored.1) (← stored.2)

/-- What the recorder holds after so many steps, having been given the series where a report is due. -/
def recordsAfter (places : Nat) : Nat → Except (Stop α) ρ
  | 0 => .ok records
  | i + 1 => do
    let held ← recordsAfter places i
    if watch.interval ≠ 0 ∧ (i + 1) % watch.interval = 0 then
      let h ← m.historyAfter config problem watch x source places (i + 1)
      (m.recorded config watch h held).mapError .failure
    else return held

/-- Nothing but the method itself can stop a run: what is measured has a value at the states that the
run visits, and the recorder fails at none of its calls. -/
structure Undisturbed (budget : Nat) : Prop where
  measured : ∀ i ≤ m.lastIndex config problem x source budget, ∀ s source',
    m.after config problem x source i = .ok (s, source') →
      ∀ quantity ∈ m.tracked problem, ∃ v, quantity.2 s = .ok v
  reported : ∀ i ≤ m.lastIndex config problem x source budget, ∀ h,
    m.historyAfter config problem watch x source (budget + 1) i = .ok h →
      ∃ held, m.recordsAfter config problem watch x source records (budget + 1) i = .ok held
  stored : ∀ h held,
    m.historyAfter config problem watch x source (budget + 1)
      (m.lastIndex config problem x source budget) = .ok h →
    m.recordsAfter config problem watch x source records (budget + 1)
      (m.lastIndex config problem x source budget) = .ok held →
      ∃ final, m.recorded config watch h held = .ok final

end Definitions

variable {m : Method α P C S D σ} {config : C} {problem : P} {watch : Watch α ρ} {x : Coords α}
  {source : σ} {records : ρ} {places : Nat}

/-- A state at which everything has a value can be observed. -/
theorem observe_ok {s : S} (all : ∀ quantity ∈ m.tracked problem, ∃ v, quantity.2 s = .ok v)
    (time : α) (place : Nat) (h : History α places) :
    ∃ v h', m.observe problem time place s h = .ok (v, h') := by
  obtain ⟨v, value⟩ := all _ List.mem_cons_self
  have values : ∀ measure ∈ m.measures, ∃ v, measure.value problem s = .ok v :=
    fun measure member => all _ (List.mem_cons_of_mem _ (List.mem_map_of_mem member))
  obtain ⟨others, atRest⟩ := measured_ok values
  have objective : m.objectiveAt problem s = .ok v := value
  have measured : m.measured problem s = .ok others := atRest
  exact ⟨v, _, by rw [observe, objective, measured]; rfl⟩

/-- An observation records one value under each of its names: the time, and every tracked quantity. -/
theorem entries_of_observe {time v : α} {place : Nat} {s : S} {h h' : History α places}
    (made : m.observe problem time place s h = .ok (v, h')) : ∃ entries : List (String × α),
      h' = h.recordAll place entries ∧ (entries.map Prod.fst).Nodup ∧
      entries.map Prod.fst = History.timeName :: (m.tracked problem).map Prod.fst ∧
      (History.timeName, time) ∈ entries ∧
      ∀ name value, (name, value) ∈ m.tracked problem → ∃ w, value s = .ok w ∧ (name, w) ∈ entries := by
  simp only [observe, Outcome.bind_eq_ok, Outcome.pure_eq_ok, Prod.mk.injEq] at made
  obtain ⟨objective, atObjective, others, atOthers, _, rfl⟩ := made
  obtain ⟨names, values⟩ := mem_measured atOthers
  obtain ⟨apart, rest⟩ := List.nodup_cons.mp m.distinct
  obtain ⟨timeApart, distinct⟩ := List.nodup_cons.mp rest
  rw [List.mem_cons, not_or] at apart
  -- The time is written first, under a name of its own, and the tracked quantities after it.
  refine ⟨(History.timeName, time) :: (History.objectiveName, objective) :: others, rfl, ?_, ?_, List.mem_cons_self,
    fun name value member => ?_⟩
  · simp only [List.map_cons, names, List.nodup_cons, List.mem_cons, not_or]
    exact ⟨⟨Ne.symm apart.1, timeApart⟩, apart.2, distinct⟩
  · simp only [tracked, List.map_cons, names, List.map_map]
    rfl
  · rcases List.mem_cons.mp member with same | later
    · cases same
      exact ⟨objective, atObjective, by simp⟩
    · obtain ⟨measure, listed, same⟩ := List.mem_map.mp later
      cases same
      obtain ⟨w, atMeasure, stands⟩ := values measure listed
      exact ⟨w, atMeasure, List.mem_cons_of_mem _ (List.mem_cons_of_mem _ stands)⟩

/-- An observation records every tracked quantity at its place and keeps the other places. -/
theorem at?_observe {time v : α} {place : Nat} {s : S} {h h' : History α places}
    (made : m.observe problem time place s h = .ok (v, h')) (inside : place < places)
    {name : String} {value : S → Checked α} (member : (name, value) ∈ m.tracked problem) :
    ∃ w, value s = .ok w ∧ ∀ j < places, h'.at? name j =
      if j = place then some w else some ((h.at? name j).getD 0) := by
  obtain ⟨entries, rfl, distinct, _, _, found⟩ := entries_of_observe made
  obtain ⟨w, atState, stands⟩ := found name value member
  exact ⟨w, atState, fun j within => (History.at?_recordAll inside distinct name within).1 w stands⟩

/-- The objective that an observation hands on stands at its place. -/
theorem at?_objective_observe {i : Nat} {s : S} {time v : α} {h h' : History α places}
    (made : m.observe problem time i s h = .ok (v, h')) (inside : i < places) :
    h'.at? History.objectiveName i = some v := by
  obtain ⟨w, atState, stands⟩ := at?_observe made inside List.mem_cons_self
  rw [stands i inside, if_pos rfl]
  simp only [observe, Outcome.bind_eq_ok, Outcome.pure_eq_ok, Prod.mk.injEq] at made
  obtain ⟨_, atObjective, _, _, rfl, _⟩ := made
  exact congrArg some (Except.ok.inj (atState.symm.trans atObjective))

/-- The time is recorded at the place of the observation. -/
theorem at?_time_observe {time v : α} {place : Nat} {s : S} {h h' : History α places}
    (made : m.observe problem time place s h = .ok (v, h')) (inside : place < places) {j : Nat}
    (within : j < places) :
    h'.at? History.timeName j = if j = place then some time else some ((h.at? History.timeName j).getD 0) := by
  obtain ⟨entries, rfl, distinct, _, stands, _⟩ := entries_of_observe made
  exact (History.at?_recordAll inside distinct _ within).1 time stands

/-- Nothing is recorded under other names. -/
theorem at?_other_observe {time v : α} {place : Nat} {s : S} {h h' : History α places}
    (made : m.observe problem time place s h = .ok (v, h')) (inside : place < places) {name : String}
    (apart : name ≠ History.timeName) (untracked : name ∉ (m.tracked problem).map Prod.fst) {j : Nat}
    (within : j < places) : h'.at? name j = h.at? name j := by
  obtain ⟨entries, rfl, distinct, names, _, _⟩ := entries_of_observe made
  refine (History.at?_recordAll inside distinct name within).2 fun listed => ?_
  rw [names] at listed
  exact (List.mem_cons.mp listed).elim apart untracked

/-- Beside the objective, the gradient may be measured at every point of its dimension. -/
theorem measured_gradient {m : Method α (Objective α) C S D σ} {f : Objective α} {n : Nat}
    (conforming : f.Conforming n) (same : m.objective f = f) (measures : m.measures = [gradientMeasure m.point])
    {s : S} (size : (m.point s).size = n) : ∀ quantity ∈ m.tracked f, ∃ v, quantity.2 s = .ok v := by
  intro quantity member
  rw [tracked, measures] at member
  rcases List.mem_cons.mp member with rfl | beside
  · obtain ⟨v, here⟩ := conforming.value (m.point s) size
    exact ⟨v, (congrArg (fun g : Objective α => g.value (m.point s)) same).trans here⟩
  · obtain rfl := List.mem_singleton.mp beside
    exact conforming.gradientNorm_ok size

theorem historyAfter_zero_eq_ok {h : History α places} :
    m.historyAfter config problem watch x source places 0 = .ok h ↔
      ∃ s source' v, m.after config problem x source 0 = .ok (s, source') ∧
        m.observe problem 0 0 s History.empty = .ok (v, h) := by
  simp [historyAfter]

theorem historyAfter_succ_eq_ok {i : Nat} {h' : History α places} :
    m.historyAfter config problem watch x source places (i + 1) = .ok h' ↔
      ∃ h s source' v, m.historyAfter config problem watch x source places i = .ok h ∧
        m.after config problem x source (i + 1) = .ok (s, source') ∧
        m.observe problem (watch.clock (i + 1)) (i + 1) s h = .ok (v, h') := by
  simp [historyAfter]

/-- Series that have been recorded up to a state have been recorded up to those before. -/
theorem historyAfter_ok_of_le {i j : Nat} {h : History α places}
    (seen : m.historyAfter config problem watch x source places j = .ok h) (early : i ≤ j) :
    ∃ h' : History α places, m.historyAfter config problem watch x source places i = .ok h' := by
  induction early generalizing h with
  | refl => exact ⟨h, seen⟩
  | step _ ih =>
    obtain ⟨h', _, _, _, before, _⟩ := historyAfter_succ_eq_ok.mp seen
    exact ih before

/-- Every tracked quantity stands at the places of the states that have been looked at, and zeros
stand behind them. -/
theorem at?_historyAfter {i : Nat} {h : History α places}
    (seen : m.historyAfter config problem watch x source places i = .ok h) (inside : i < places)
    {name : String} {value : S → Checked α} (member : (name, value) ∈ m.tracked problem) :
    (∀ j ≤ i, ∃ s source' v, m.after config problem x source j = .ok (s, source') ∧
      value s = .ok v ∧ h.at? name j = some v) ∧
    ∀ j, i < j → j < places → h.at? name j = some 0 := by
  induction i generalizing h with
  | zero =>
    obtain ⟨s, source', v, reached, made⟩ := historyAfter_zero_eq_ok.mp seen
    obtain ⟨w, atState, stands⟩ := at?_observe made inside member
    constructor
    · intro j early
      obtain rfl : j = 0 := Nat.le_zero.mp early
      exact ⟨s, source', w, reached, atState, by rw [stands 0 inside, if_pos rfl]⟩
    · intro j late within
      rw [stands j within, if_neg (by omega), History.at?_empty, Option.getD_none]
  | succ i ih =>
    obtain ⟨before, s, source', v, earlier, reached, made⟩ := historyAfter_succ_eq_ok.mp seen
    obtain ⟨w, atState, stands⟩ := at?_observe made inside member
    obtain ⟨values, zeros⟩ := ih earlier (by omega)
    constructor
    · intro j early
      by_cases here : j = i + 1
      · subst here
        exact ⟨s, source', w, reached, atState, by rw [stands _ inside, if_pos rfl]⟩
      · obtain ⟨s', between, v', passed, atPassed, stood⟩ := values j (by omega)
        refine ⟨s', between, v', passed, atPassed, ?_⟩
        rw [stands j (by omega), if_neg here, stood, Option.getD_some]
    · intro j late within
      rw [stands j within, if_neg (by omega), zeros j (by omega) within, Option.getD_some]

/-- Storing the record changes what the recorder holds and adds events. -/
theorem onLedger_store {h : History α places} {l : Ledger α σ ρ} {held : ρ}
    (stored : m.recorded config watch h l.records = .ok held) :
    ∃ events, (m.store config watch h).onLedger l = (.ok (), ⟨l.source, held, l.waits, events⟩) := by
  unfold recorded at stored
  unfold store
  cases present : watch.recorder with
  | none =>
    rw [present] at stored
    cases stored
    exact ⟨l.events, rfl⟩
  | some r =>
    simp only [present, Outcome.bind_eq_ok, Outcome.pure_eq_ok] at stored
    obtain ⟨settings, written, events, kept, rfl⟩ := stored
    have told : (liftM (Work.ofExcept (m.schema.toSettings config) : Work α (Settings α)) :
        Running α σ ρ (Settings α)).onLedger l = (.ok settings, l) := by
      rw [Running.onLedger_except, written]
      rfl
    exact ⟨_, (Running.onLedger_bind_ok told).trans (Running.onLedger_store (Prod.ext rfl kept))⟩

/-- A report hands the series to the recorder where one is due, and changes nothing else. -/
theorem onLedger_report {i : Nat} {h : History α places} {l : Ledger α σ ρ} {held : ρ} (value : α)
    (before : m.recordsAfter config problem watch x source records places i = .ok l.records)
    (seen : m.historyAfter config problem watch x source places (i + 1) = .ok h)
    (after : m.recordsAfter config problem watch x source records places (i + 1) = .ok held) :
    ∃ events, (m.report config watch (i + 1) value h).onLedger l =
      (.ok (), ⟨l.source, held, l.waits, events⟩) := by
  unfold report
  rw [recordsAfter, before] at after
  by_cases due : watch.interval ≠ 0 ∧ (i + 1) % watch.interval = 0
  · rw [if_pos due]
    simp only [Outcome.bind_eq_ok, Except.ok.injEq, exists_eq_left', if_pos due, seen,
      Outcome.relabelled_eq_ok] at after
    rw [Running.onLedger_bind_ok (Running.onLedger_notes _ l)]
    exact onLedger_store after
  · rw [if_neg due]
    simp only [Outcome.bind_eq_ok, Except.ok.injEq, exists_eq_left', if_neg due,
      Outcome.pure_eq_ok] at after
    exact ⟨l.events, after ▸ rfl⟩

/-- Without a recorder it is enough that everything measured has a value. -/
theorem undisturbed_of_unrecorded {budget : Nat} (unrecorded : watch.recorder = none)
    (measured : ∀ i s source', m.after config problem x source i = .ok (s, source') →
      ∀ quantity ∈ m.tracked problem, ∃ v, quantity.2 s = .ok v) :
    m.Undisturbed config problem watch x source records budget := by
  have kept : ∀ (h : History α (budget + 1)) (held : ρ), m.recorded config watch h held = .ok held := by
    intro h held
    rw [recorded, unrecorded]
  refine ⟨fun i _ => measured i, fun i _ h seen => ⟨records, ?_⟩, fun h held _ _ => ⟨held, kept h held⟩⟩
  induction i generalizing h with
  | zero => rfl
  | succ i ih =>
    obtain ⟨before, _, _, _, earlier, _⟩ := historyAfter_succ_eq_ok.mp seen
    rw [recordsAfter, ih (by omega) before earlier, seen]
    simp only [bind, Except.bind, kept h records]
    split <;> rfl

end Downhill.Method
