import Downhill.Proofs.Run.Loop
import Downhill.Proofs.Run.Return

namespace Downhill.Method

variable {α P P' C C' S S' D D' σ σ' ρ ρ' : Type} {m : Method α P C S D σ} {m' : Method α P' C' S' D' σ'}
  {config : C} {config' : C'} {problem : P} {problem' : P'} {x x' : Coords α} {source : σ} {source' : σ'}

theorem after_relates {Related : S → S' → Prop}
    (initial : ∀ s s', (m.start config problem x).outcome = .ok s →
      (m'.start config' problem' x').outcome = .ok s' → Related s s')
    (keeps : ∀ between between' s s' t t', Related s s' →
      (m.step config problem (m.draw config between).1 s).outcome = .ok t →
      (m'.step config' problem' (m'.draw config' between').1 s').outcome = .ok t' → Related t t')
    {i : Nat} {s : S} {s' : S'} {between : σ} {between' : σ'}
    (reached : m.after config problem x source i = .ok (s, between))
    (reached' : m'.after config' problem' x' source' i = .ok (s', between')) : Related s s' := by
  induction i generalizing s s' between between' with
  | zero => exact initial s s' (after_zero_eq_ok.mp reached).1 (after_zero_eq_ok.mp reached').1
  | succ i ih =>
    obtain ⟨before, last, earlier, made, _⟩ := after_succ_eq_ok.mp reached
    obtain ⟨before', last', earlier', made', _⟩ := after_succ_eq_ok.mp reached'
    exact keeps last last' before before' s s' (ih earlier earlier') made made'

theorem unfinished_of_keeps (initial : ∀ s, (m.start config problem x).outcome = .ok s → m.finished s = false)
    (keeps : ∀ drawn s s', (m.step config problem drawn s).outcome = .ok s' → m.finished s' = m.finished s)
    (i : Nat) : m.finishedAfter config problem x source i = false := by
  cases reached : m.after config problem x source i with
  | error stop => rw [finishedAfter, reached]
  | ok state =>
    have still : ∀ drawn s s', m.finished s = false → (m.step config problem drawn s).outcome = .ok s' →
        m.finished s' = false := fun drawn s s' unfinished made => (keeps drawn s s' made).trans unfinished
    rw [finishedAfter_eq reached]
    exact after_invariant initial still reached

theorem lastIndex_of_unfinished (never : ∀ i, m.finishedAfter config problem x source i = false) (budget : Nat) :
    m.lastIndex config problem x source budget = budget :=
  lastIndex_eq le_rfl (fun i _ => never i) (Or.inr rfl)

variable [Scalar α] {watch : Watch α ρ} {watch' : Watch α ρ'} {records : ρ} {budget : Nat}

theorem Returned.whole {summary : Summary α S (budget + 1)}
    (result : m.Returned config problem watch x source summary)
    (never : ∀ i, m.finishedAfter config problem x source i = false) : summary.iterations = budget :=
  result.last.trans (lastIndex_of_unfinished never budget)

/-- Without a recorder such a run returns with the last state of its budget, or fails with what keeps the method
from coming to that. -/
theorem run_whole (valid : m.schema.validate config = .ok ()) (unrecorded : watch.recorder = none)
    (measured : ∀ i s between, m.after config problem x source i = .ok (s, between) →
      ∀ quantity ∈ m.tracked problem, ∃ v, quantity.2 s = .ok v)
    (never : ∀ i, m.finishedAfter config problem x source i = false) :
    (∀ stop, m.after config problem x source budget = .error stop →
      (m.run config problem watch source records x budget).1 = .error stop) ∧
    ∀ s between, m.after config problem x source budget = .ok (s, between) →
      ∃ summary, (m.run config problem watch source records x budget).1 = .ok summary ∧
        summary.state = s ∧ summary.iterations = budget := by
  have calm : m.Undisturbed config problem watch x source records budget :=
    undisturbed_of_unrecorded unrecorded measured
  have follows := run_follows calm valid
  rw [lastIndex_of_unfinished never] at follows
  obtain ⟨stops, ends⟩ := follows
  refine ⟨stops, fun s between reached => ?_⟩
  obtain ⟨h, _, returned, _⟩ := ends s between reached
  exact ⟨_, returned, rfl, rfl⟩

theorem run_ok_iff (valid : m.schema.validate config = .ok ()) (unrecorded : watch.recorder = none)
    (measured : ∀ i s between, m.after config problem x source i = .ok (s, between) →
      ∀ quantity ∈ m.tracked problem, ∃ v, quantity.2 s = .ok v)
    (never : ∀ i, m.finishedAfter config problem x source i = false) :
    (∃ summary, (m.run config problem watch source records x budget).1 = .ok summary) ↔
      ∃ s between, m.after config problem x source budget = .ok (s, between) := by
  constructor
  · rintro ⟨summary, returned⟩
    cases reached : m.after config problem x source budget with
    | ok state => exact ⟨state.1, state.2, rfl⟩
    | error stop => cases returned.symm.trans ((run_whole valid unrecorded measured never).1 stop reached)
  · rintro ⟨s, between, reached⟩
    obtain ⟨summary, returned, _⟩ := (run_whole valid unrecorded measured never).2 s between reached
    exact ⟨summary, returned⟩

theorem Returned.at?_eq {summary : Summary α S (budget + 1)} {summary' : Summary α S' (budget + 1)}
    (result : m.Returned config problem watch x source summary)
    (result' : m'.Returned config' problem' watch' x' source' summary')
    (same : summary.iterations = summary'.iterations) {name : String} {value : S → Checked α}
    {value' : S' → Checked α} (member : (name, value) ∈ m.tracked problem)
    (member' : (name, value') ∈ m'.tracked problem')
    (alike : ∀ i s s' between between', m.after config problem x source i = .ok (s, between) →
      m'.after config' problem' x' source' i = .ok (s', between') → value s = value' s') (j : Nat) :
    summary.history.at? name j = summary'.history.at? name j := by
  have inside : summary.iterations < budget + 1 := Nat.lt_succ_of_le result.within
  obtain ⟨stands, zeros⟩ := at?_historyAfter result.seen inside member
  obtain ⟨stands', zeros'⟩ := at?_historyAfter result'.seen (same ▸ inside) member'
  by_cases early : j ≤ summary.iterations
  · obtain ⟨s, between, v, reached, atState, here⟩ := stands j early
    obtain ⟨s', between', v', reached', atState', there⟩ := stands' j (same ▸ early)
    have same := alike j s s' between between' reached reached'
    have equal : v = v' := Except.ok.inj (atState.symm.trans (same.trans atState'))
    rw [here, there, equal]
  · rw [not_le] at early
    by_cases within : j < budget + 1
    · rw [zeros j early within, zeros' j (same ▸ early) within]
    · rw [History.at?_of_le (not_lt.mp within), History.at?_of_le (not_lt.mp within)]

end Downhill.Method
