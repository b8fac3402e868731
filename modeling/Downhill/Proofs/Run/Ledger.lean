import Downhill.Proofs.Outcome
import Downhill.Run

namespace Downhill.Running

variable {α σ ρ β γ : Type}

/-- How a piece of a run ends when it begins with a ledger, and the ledger it leaves. -/
def onLedger (x : Running α σ ρ β) (l : Ledger α σ ρ) : Except (Stop α) β × Ledger α σ ρ :=
  x.run.run l

theorem onLedger_bind_ok {x : Running α σ ρ β} {f : β → Running α σ ρ γ} {l l' : Ledger α σ ρ} {b : β}
    (ended : x.onLedger l = (.ok b, l')) : (x >>= f).onLedger l = (f b).onLedger l' := by
  have first : x.run.run l = (.ok b, l') := ended
  rw [onLedger, ExceptT.run_bind, StateT.run_bind, first]
  rfl

theorem onLedger_bind_error {x : Running α σ ρ β} {f : β → Running α σ ρ γ} {l l' : Ledger α σ ρ}
    {stop : Stop α} (ended : x.onLedger l = (.error stop, l')) :
    (x >>= f).onLedger l = (.error stop, l') := by
  have first : x.run.run l = (.error stop, l') := ended
  rw [onLedger, ExceptT.run_bind, StateT.run_bind, first]
  rfl

/-- A sequence comes to an end exactly when both its parts do. -/
theorem onLedger_bind_eq_ok {x : Running α σ ρ β} {f : β → Running α σ ρ γ} {l l' : Ledger α σ ρ} {c : γ} :
    (x >>= f).onLedger l = (.ok c, l') ↔
      ∃ b between, x.onLedger l = (.ok b, between) ∧ (f b).onLedger between = (.ok c, l') := by
  obtain ⟨outcome, between, ended⟩ : ∃ outcome between, x.onLedger l = (outcome, between) :=
    ⟨_, _, rfl⟩
  cases outcome with
  | ok b =>
    rw [onLedger_bind_ok ended, ended]
    constructor
    · exact fun made => ⟨b, between, rfl, made⟩
    · rintro ⟨_, _, same, made⟩
      cases same
      exact made
  | error stop =>
    rw [onLedger_bind_error ended, ended]
    simp

@[simp]
theorem onLedger_notes (es : List (Event α)) (l : Ledger α σ ρ) :
    (notes es : Running α σ ρ Unit).onLedger l = (.ok (), { l with events := l.events ++ es }) :=
  rfl

@[simp]
theorem onLedger_synchronize (l : Ledger α σ ρ) :
    (synchronize : Running α σ ρ Unit).onLedger l = (.ok (), { l with waits := l.waits + 1 }) :=
  rfl

@[simp]
theorem onLedger_draw {D : Type} (next : σ → D × σ) (l : Ledger α σ ρ) :
    (draw next : Running α σ ρ D).onLedger l =
      (.ok (next l.source).1, { l with source := (next l.source).2 }) :=
  rfl

/-- Work within a run ends as it would alone, and its events are added to those of the run. -/
theorem onLedger_work (w : Work α β) (l : Ledger α σ ρ) :
    (work w : Running α σ ρ β).onLedger l = (w.outcome, { l with events := l.events ++ w.events }) := by
  unfold work
  rw [onLedger_bind_ok (onLedger_notes w.events l)]
  cases w.outcome with
  | ok b => rfl
  | error stop => rfl

theorem onLedger_lift (w : Work α β) (l : Ledger α σ ρ) :
    (liftM w : Running α σ ρ β).onLedger l = (w.outcome, { l with events := l.events ++ w.events }) :=
  onLedger_work w l

/-- A checked result within a run leaves the ledger as it is. -/
theorem onLedger_checked (result : Checked β) (l : Ledger α σ ρ) :
    (liftM (Work.ofChecked result : Work α β) : Running α σ ρ β).onLedger l = (result.mapError .fault, l) := by
  simp [onLedger_lift, Work.ofChecked, Work.quiet]

theorem onLedger_except (result : Except (Failure α) β) (l : Ledger α σ ρ) :
    (liftM (Work.ofExcept result : Work α β) : Running α σ ρ β).onLedger l = (result.mapError .failure, l) := by
  simp [onLedger_lift, Work.ofExcept, Work.quiet]

/-- Work within a run that comes to an end would do so alone. -/
theorem outcome_of_onLedger_lift {w : Work α β} {l l' : Ledger α σ ρ} {b : β}
    (ended : (liftM w : Running α σ ρ β).onLedger l = (.ok b, l')) : w.outcome = .ok b := by
  rw [onLedger_lift] at ended
  exact congrArg Prod.fst ended

theorem onLedger_store {places : Nat} {r : Recorder α ρ} {h : History α places} {settings : Settings α}
    {l : Ledger α σ ρ} {records : ρ} {events : List (Event α)}
    (stored : r.store h settings l.records = (records, .ok events)) :
    (store r h settings : Running α σ ρ Unit).onLedger l =
      (.ok (), { l with records, events := l.events ++ events }) := by
  have turn : (modifyGet fun l =>
      let stored := r.store h settings l.records
      (stored.2, { l with records := stored.1 }) :
        Running α σ ρ (Except (Failure α) (List (Event α)))).onLedger l =
      (.ok (.ok events), { l with records }) := by
    change (Except.ok (r.store h settings l.records).2,
      { l with records := (r.store h settings l.records).1 }) = _
    rw [stored]
  unfold store
  rw [onLedger_bind_ok turn, onLedger_bind_ok (onLedger_work (.ofExcept (.ok events)) _), onLedger_notes]
  simp [Work.ofExcept, Work.quiet]

theorem onLedger_store_eq_ok {places : Nat} {r : Recorder α ρ} {h : History α places}
    {settings : Settings α} {l l' : Ledger α σ ρ} :
    (store r h settings : Running α σ ρ Unit).onLedger l = (.ok (), l') ↔
      ∃ events, (r.store h settings l.records).2 = .ok events ∧
        l' = ⟨l.source, (r.store h settings l.records).1, l.waits, l.events ++ events⟩ := by
  constructor
  · intro ended
    obtain ⟨result, _, turn, rest⟩ := onLedger_bind_eq_ok.mp ended
    obtain ⟨events, _, told, noted⟩ := onLedger_bind_eq_ok.mp rest
    cases turn
    have answer : (r.store h settings l.records).2 = .ok events :=
      Outcome.relabelled_eq_ok.mp (outcome_of_onLedger_lift told)
    have made := (onLedger_store (Prod.ext rfl answer)).symm.trans ended
    exact ⟨events, answer, (congrArg Prod.snd made).symm⟩
  · rintro ⟨events, answer, rfl⟩
    exact onLedger_store (Prod.ext rfl answer)

/-- Nothing is drawn, however the piece of a run ends. -/
def Drawless (x : Running α σ ρ β) : Prop :=
  ∀ l, (x.onLedger l).2.source = l.source

theorem Drawless.source_eq {x : Running α σ ρ β} (drawless : Drawless x) {l l' : Ledger α σ ρ}
    {outcome : Except (Stop α) β} (ended : x.onLedger l = (outcome, l')) : l'.source = l.source := by
  rw [← drawless l, ended]

theorem Drawless.bind {x : Running α σ ρ β} {f : β → Running α σ ρ γ} (first : Drawless x)
    (second : ∀ b, Drawless (f b)) : Drawless (x >>= f) := by
  intro l
  obtain ⟨outcome, between, ended⟩ : ∃ outcome between, x.onLedger l = (outcome, between) := ⟨_, _, rfl⟩
  have kept := first.source_eq ended
  cases outcome with
  | ok b =>
    rw [onLedger_bind_ok ended]
    exact (second b between).trans kept
  | error stop =>
    rw [onLedger_bind_error ended]
    exact kept

theorem drawless_notes (es : List (Event α)) : Drawless (notes es : Running α σ ρ Unit) :=
  fun _ => rfl

theorem drawless_synchronize : Drawless (synchronize : Running α σ ρ Unit) :=
  fun _ => rfl

theorem drawless_lift (w : Work α β) : Drawless (liftM w : Running α σ ρ β) := by
  intro l
  rw [onLedger_lift]

theorem drawless_store {places : Nat} (r : Recorder α ρ) (h : History α places) (settings : Settings α) :
    Drawless (store r h settings : Running α σ ρ Unit) :=
  Drawless.bind (fun _ => rfl) fun _ => Drawless.bind (drawless_lift _) drawless_notes

end Downhill.Running
