import Downhill.Proofs.Run.Ledger

namespace Downhill

namespace Running

variable {α σ ρ β γ : Type} {Holds : Event α → Prop}

/-- Events of one kind are added to those of that kind, however the piece of a run ends. -/
def NotesOnly (Holds : Event α → Prop) (x : Running α σ ρ β) : Prop :=
  ∀ l, (∀ e ∈ l.events, Holds e) → ∀ e ∈ (x.onLedger l).2.events, Holds e

theorem NotesOnly.bind {x : Running α σ ρ β} {f : β → Running α σ ρ γ} (first : NotesOnly Holds x)
    (second : ∀ b l l', x.onLedger l = (.ok b, l') → NotesOnly Holds (f b)) : NotesOnly Holds (x >>= f) := by
  intro l before
  obtain ⟨outcome, between, ended⟩ : ∃ outcome between, x.onLedger l = (outcome, between) := ⟨_, _, rfl⟩
  have held := first l before
  rw [ended] at held
  cases outcome with
  | ok b =>
    rw [onLedger_bind_ok ended]
    exact second b l between ended between held
  | error stop =>
    rw [onLedger_bind_error ended]
    exact held

theorem notesOnly_of_silent {x : Running α σ ρ β} (silent : ∀ l, (x.onLedger l).2.events = l.events) :
    NotesOnly Holds x := by
  intro l before
  rw [silent]
  exact before

theorem notesOnly_notes {es : List (Event α)} (all : ∀ e ∈ es, Holds e) :
    NotesOnly Holds (notes es : Running α σ ρ Unit) := by
  intro l before e member
  rw [onLedger_notes, ← Array.mem_toList_iff, Array.toList_appendList, List.mem_append,
    Array.mem_toList_iff] at member
  rcases member with earlier | later
  · exact before e earlier
  · exact all e later

theorem notesOnly_lift {w : Work α β} (all : ∀ e ∈ w.events, Holds e) :
    NotesOnly Holds (liftM w : Running α σ ρ β) := by
  intro l before
  rw [onLedger_lift]
  exact notesOnly_notes (σ := σ) (ρ := ρ) all l before

end Running

/-- What a recorder notes when it has stored a record is of one kind. -/
def Recorder.NotesOnly {α ρ : Type} (r : Recorder α ρ) (Holds : Event α → Prop) : Prop :=
  ∀ {places : Nat} (h : History α places) settings held events,
    (r.store h settings held).2 = .ok events → ∀ e ∈ events, Holds e

theorem Running.notesOnly_store {α σ ρ : Type} {Holds : Event α → Prop} {r : Recorder α ρ}
    (kind : r.NotesOnly Holds) {places : Nat} (h : History α places) (settings : Settings α) :
    NotesOnly Holds (store r h settings : Running α σ ρ Unit) := by
  refine NotesOnly.bind (notesOnly_of_silent fun _ => rfl) fun result l between stored =>
    NotesOnly.bind (notesOnly_lift nofun) fun events _ _ told => notesOnly_notes ?_
  have answer : (r.store h settings l.records).2 = result := Except.ok.inj (congrArg Prod.fst stored)
  have noted : result = .ok events := Outcome.relabelled_eq_ok.mp (outcome_of_onLedger_lift told)
  exact kind h settings l.records events (answer.trans noted)

namespace Method

variable {α P C S D σ ρ : Type} (m : Method α P C S D σ) (config : C) (problem : P) (x : Coords α)
  (Holds : Event α → Prop)

/-- The start, every step from whatever state, and a run beside them note events of one kind alone. -/
structure NotesOnly : Prop where
  start : ∀ e ∈ (m.start config problem x).events, Holds e
  step : ∀ drawn s, ∀ e ∈ (m.step config problem drawn s).events, Holds e
  progress : ∀ done v, Holds (.progress m.tag done v)
  stopped : ∀ done, Holds (.stopped m.tag done)

variable {m config problem x Holds} [Scalar α] {watch : Watch α ρ}

theorem store_notesOnly (recorder : ∀ r, watch.recorder = some r → r.NotesOnly Holds) {places : Nat}
    (h : History α places) : (m.store config watch h : Running α σ ρ Unit).NotesOnly Holds := by
  unfold store
  split
  · exact Running.notesOnly_of_silent fun _ => rfl
  rename_i r present
  exact Running.NotesOnly.bind (Running.notesOnly_lift nofun) fun settings _ _ _ =>
    Running.notesOnly_store (recorder r present) h settings

namespace NotesOnly

variable (notes : m.NotesOnly config problem x Holds)
  (recorder : ∀ r, watch.recorder = some r → r.NotesOnly Holds)

include notes recorder

theorem report {places : Nat} (done : Nat) (v : α) (h : History α places) :
    (m.report config watch done v h : Running α σ ρ Unit).NotesOnly Holds := by
  unfold Method.report
  split
  · refine Running.NotesOnly.bind (Running.notesOnly_notes fun e member => ?_) fun _ _ _ _ =>
      store_notesOnly recorder h
    rw [List.mem_singleton.mp member]
    exact notes.progress done v
  · exact Running.notesOnly_of_silent fun _ => rfl

theorem iterations {places : Nat} (left done : Nat) (s : S) (h : History α places) :
    (m.iterations config problem watch left done s h).NotesOnly Holds := by
  induction left generalizing done s h with
  | zero => exact Running.notesOnly_of_silent fun _ => rfl
  | succ left ih =>
    unfold Method.iterations
    split
    · refine Running.NotesOnly.bind (Running.notesOnly_notes fun e member => ?_) fun _ _ _ _ =>
        Running.notesOnly_of_silent fun _ => rfl
      rw [List.mem_singleton.mp member]
      exact notes.stopped done
    · refine Running.NotesOnly.bind (Running.notesOnly_of_silent fun _ => rfl) fun drawn _ _ _ =>
        Running.NotesOnly.bind (Running.notesOnly_lift (notes.step drawn s)) fun s' _ _ _ =>
        Running.NotesOnly.bind (Running.notesOnly_of_silent fun _ => rfl) fun _ _ _ _ =>
        Running.NotesOnly.bind (Running.notesOnly_lift nofun) fun seen _ _ _ => ?_
      exact Running.NotesOnly.bind (notes.report recorder _ _ _) fun _ _ _ _ => ih (done + 1) s' seen.2

/-- Whatever is noted by then, also when the run has failed. -/
theorem run (source : σ) (records : ρ) (budget : Nat) :
    ∀ e ∈ (m.run config problem watch source records x budget).2.events, Holds e := by
  have whole : (m.running config problem watch x budget).NotesOnly Holds := by
    unfold running
    refine Running.NotesOnly.bind (Running.notesOnly_lift nofun) fun _ _ _ _ =>
      Running.NotesOnly.bind (Running.notesOnly_lift notes.start) fun s _ _ _ =>
      Running.NotesOnly.bind (Running.notesOnly_lift nofun) fun seen _ _ _ =>
      Running.NotesOnly.bind (Running.notesOnly_of_silent fun _ => rfl) fun _ _ _ _ =>
      Running.NotesOnly.bind (notes.iterations recorder budget 0 s seen.2) fun summary _ _ _ =>
      Running.NotesOnly.bind (store_notesOnly recorder _) fun _ _ _ _ => Running.notesOnly_of_silent fun _ => rfl
  exact whole ⟨source, records, 0, #[]⟩ (fun e member => absurd member (Array.not_mem_empty e))

end NotesOnly

end Method

end Downhill
