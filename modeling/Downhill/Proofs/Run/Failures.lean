import Downhill.Proofs.Ending
import Downhill.Proofs.Run.Return

namespace Downhill

variable {α σ ρ β γ : Type}

namespace Running

/-- If the piece of a run fails, it fails only so. -/
def FailsOnly (Cause : Stop α → Prop) (x : Running α σ ρ β) : Prop :=
  ∀ l l' stop, x.onLedger l = (.error stop, l') → Cause stop

variable {Cause : Stop α → Prop}

theorem FailsOnly.bind {x : Running α σ ρ β} {f : β → Running α σ ρ γ} (first : x.FailsOnly Cause)
    (second : ∀ b l l', x.onLedger l = (.ok b, l') → (f b).FailsOnly Cause) : (x >>= f).FailsOnly Cause := by
  intro l l' stop failed
  obtain ⟨outcome, between, ended⟩ : ∃ outcome between, x.onLedger l = (outcome, between) := ⟨_, _, rfl⟩
  cases outcome with
  | ok b =>
    rw [onLedger_bind_ok ended] at failed
    exact second b l between ended between l' stop failed
  | error why =>
    rw [onLedger_bind_error ended] at failed
    cases failed
    exact first l _ stop ended

theorem failsOnly_pure (b : β) : (pure b : Running α σ ρ β).FailsOnly Cause :=
  fun _ _ _ failed => nomatch failed

theorem failsOnly_notes (es : List (Event α)) : (notes es : Running α σ ρ Unit).FailsOnly Cause :=
  fun _ _ _ failed => nomatch failed

theorem failsOnly_synchronize : (synchronize : Running α σ ρ Unit).FailsOnly Cause :=
  fun _ _ _ failed => nomatch failed

theorem failsOnly_draw {D : Type} (next : σ → D × σ) : (draw next : Running α σ ρ D).FailsOnly Cause :=
  fun _ _ _ failed => nomatch failed

theorem failsOnly_lift {w : Work α β} (ends : ∀ stop, w.outcome = .error stop → Cause stop) :
    (liftM w : Running α σ ρ β).FailsOnly Cause := by
  intro l l' stop failed
  rw [onLedger_lift] at failed
  exact ends stop (congrArg Prod.fst failed)

theorem FailsOnly.mono {Wider : Stop α → Prop} {x : Running α σ ρ β} (fails : x.FailsOnly Cause)
    (wider : ∀ stop, Cause stop → Wider stop) : x.FailsOnly Wider :=
  fun l l' stop failed => wider stop (fails l l' stop failed)

theorem failsOnly_ended {w : Work α β} (ended : ∃ b, w.outcome = .ok b) :
    (liftM w : Running α σ ρ β).FailsOnly Cause := by
  obtain ⟨b, made⟩ := ended
  refine failsOnly_lift fun stop failed => ?_
  cases made.symm.trans failed

theorem failsOnly_store {places : Nat} {r : Recorder α ρ} {h : History α places} {settings : Settings α}
    (told : ∀ held why, (r.store h settings held).2 = .error why → Cause (.failure why)) :
    (store r h settings : Running α σ ρ Unit).FailsOnly Cause := by
  refine FailsOnly.bind (fun _ _ _ failed => nomatch failed) fun result l between stored =>
    FailsOnly.bind (failsOnly_lift fun stop failed => ?_) fun _ _ _ _ => failsOnly_notes _
  have answer : (r.store h settings l.records).2 = result := Except.ok.inj (congrArg Prod.fst stored)
  cases result with
  | ok events => cases failed
  | error why =>
    cases failed
    exact told l.records why answer

end Running

/-- The recorder fails when it is told the settings. -/
def Watch.Refuses (watch : Watch α ρ) (settings : Settings α) (stop : Stop α) : Prop :=
  ∃ r why places, ∃ h : History α places, ∃ held,
    watch.recorder = some r ∧ stop = .failure why ∧ (r.store h settings held).2 = .error why

namespace Method

variable {P C S D : Type} (m : Method α P C S D σ) (config : C) (problem : P)

/-- From a kind of states, which the start is of and every step keeps, the method goes on, or fails for one of the
reasons given; everything measured has a value. -/
structure Guarded (x : Coords α) (Fits : S → Prop) (AtStart InStep : Failure α → Prop) : Prop where
  start : (m.start config problem x).Ends Fits AtStart
  step : ∀ source s, Fits s → (m.step config problem (m.draw config source).1 s).Ends Fits InStep
  tracked : ∀ s, Fits s → ∀ quantity ∈ m.tracked problem, ∃ v, quantity.2 s = .ok v

/-- From a kind of states, which the start is of and every step keeps, the method always goes on, and everything
measured has a value. -/
structure Unfailing (x : Coords α) (Holds : S → Prop) : Prop where
  start : ∃ s, (m.start config problem x).outcome = .ok s ∧ Holds s
  step : ∀ drawn s, Holds s → ∃ s', (m.step config problem drawn s).outcome = .ok s' ∧ Holds s'
  tracked : ∀ s, Holds s → ∀ quantity ∈ m.tracked problem, ∃ v, quantity.2 s = .ok v

variable {m config problem} {x : Coords α} {Holds Fits : S → Prop} {AtStart InStep : Failure α → Prop}

theorem Guarded.fits (guarded : m.Guarded config problem x Fits AtStart InStep) {source source' : σ} {i : Nat}
    {s : S} (reached : m.after config problem x source i = .ok (s, source')) : Fits s := by
  induction i generalizing s source' with
  | zero => exact guarded.start.of_ok (after_zero_eq_ok.mp reached).1
  | succ i ih =>
    obtain ⟨before, between, earlier, made, _⟩ := after_succ_eq_ok.mp reached
    exact (guarded.step between before (ih earlier)).of_ok made

theorem Unfailing.guarded (unfailing : m.Unfailing config problem x Holds) :
    m.Guarded config problem x Holds (fun _ => False) fun _ => False where
  start := Work.ends_ok unfailing.start
  step _ s holds := Work.ends_ok (unfailing.step _ s holds)
  tracked := unfailing.tracked

theorem Unfailing.reached (unfailing : m.Unfailing config problem x Holds) (source : σ) (i : Nat) :
    ∃ s source', m.after config problem x source i = .ok (s, source') ∧ Holds s :=
  after_reaches (fun _ => Holds) unfailing.start (fun _ _ => unfailing.step _) i

variable [Scalar α] {watch : Watch α ρ}

variable (m config watch) in
/-- There is a recorder, and either its settings cannot be written or it fails when it is told them. -/
def RecorderFails (stop : Stop α) : Prop :=
  watch.recorder ≠ none ∧ ((∃ why, m.schema.toSettings config = .error why ∧ stop = .failure why) ∨
    ∃ settings, m.schema.toSettings config = .ok settings ∧ watch.Refuses settings stop)

theorem RecorderFails.refuses {stop : Stop α} (fails : m.RecorderFails config watch stop) {settings : Settings α}
    (written : m.schema.toSettings config = .ok settings) : watch.Refuses settings stop := by
  obtain ⟨_, ⟨why, unwritten, _⟩ | ⟨told, same, refused⟩⟩ := fails
  · cases written.symm.trans unwritten
  · obtain rfl := Except.ok.inj (written.symm.trans same)
    exact refused

theorem store_failsOnly {places : Nat} (h : History α places) :
    (m.store config watch h : Running α σ ρ Unit).FailsOnly (m.RecorderFails config watch) := by
  unfold store
  split
  · exact Running.failsOnly_pure ()
  rename_i r present
  have recorded : watch.recorder ≠ none := present ▸ Option.some_ne_none r
  refine Running.FailsOnly.bind (Running.failsOnly_lift fun stop failed => ?_) fun settings l between told => ?_
  · cases written : m.schema.toSettings config with
    | ok settings =>
      rw [written] at failed
      cases failed
    | error why =>
      rw [written] at failed
      cases failed
      exact ⟨recorded, Or.inl ⟨why, written, rfl⟩⟩
  · have written : m.schema.toSettings config = .ok settings :=
      Outcome.relabelled_eq_ok.mp (Running.outcome_of_onLedger_lift told)
    exact Running.failsOnly_store fun held why refused =>
      ⟨recorded, Or.inr ⟨settings, written, r, why, places, h, held, present, rfl, refused⟩⟩

theorem report_failsOnly {places : Nat} (done : Nat) (v : α) (h : History α places) :
    (m.report config watch done v h).FailsOnly (m.RecorderFails config watch) := by
  unfold report
  split
  · exact Running.FailsOnly.bind (Running.failsOnly_notes _) fun _ _ _ _ => store_failsOnly h
  · exact Running.failsOnly_pure ()

namespace Guarded

theorem observed (guarded : m.Guarded config problem x Fits AtStart InStep) {s : S} (fits : Fits s) {places : Nat}
    (time : α) (place : Nat) (h : History α places) :
    ∃ seen, (Work.ofChecked (m.observe problem time place s h) : Work α (α × History α places)).outcome =
    .ok seen := by
  obtain ⟨v, h', made⟩ := observe_ok (guarded.tracked s fits) time place h
  exact ⟨(v, h'), Outcome.relabelled_eq_ok.mpr made⟩

theorem iterations_failsOnly (guarded : m.Guarded config problem x Fits AtStart InStep) {Cause : Stop α → Prop}
    (reasons : ∀ why, InStep why → Cause (.failure why))
    (recorder : ∀ stop, m.RecorderFails config watch stop → Cause stop)
    {places : Nat} (left done : Nat) {s : S} (fits : Fits s) (h : History α places) :
    (m.iterations config problem watch left done s h).FailsOnly Cause := by
  -- On the iterations left; what each of them keeps is the kind of the state.
  induction left generalizing done s h with
  | zero => exact Running.failsOnly_pure _
  | succ left ih =>
    unfold iterations
    split
    · exact Running.FailsOnly.bind (Running.failsOnly_notes _) fun _ _ _ _ => Running.failsOnly_pure _
    refine Running.FailsOnly.bind (Running.failsOnly_draw _) fun drawn l _ taken => ?_
    obtain rfl : (m.draw config l.source).1 = drawn := Except.ok.inj (congrArg Prod.fst taken)
    have ends := guarded.step l.source s fits
    refine Running.FailsOnly.bind (Running.failsOnly_lift fun stop failed => ?_) fun next _ _ stepped => ?_
    · obtain ⟨why, rfl, reason⟩ := ends.of_error failed
      exact reasons why reason
    have fits' : Fits next := ends.of_ok (Running.outcome_of_onLedger_lift stepped)
    refine Running.FailsOnly.bind Running.failsOnly_synchronize fun _ _ _ _ =>
      Running.FailsOnly.bind (Running.failsOnly_ended (guarded.observed fits' _ _ h)) fun seen _ _ _ => ?_
    exact Running.FailsOnly.bind ((report_failsOnly _ _ _).mono recorder) fun _ _ _ _ => ih (done + 1) fits' seen.2

/-- A run whose configuration is valid fails only for the reasons given, or where its recorder does. -/
theorem run_fails (guarded : m.Guarded config problem x Fits AtStart InStep)
    (valid : m.schema.validate config = .ok ()) {source : σ} {records : ρ} {budget : Nat} {stop : Stop α}
    (failed : (m.run config problem watch source records x budget).1 = .error stop) :
    (∃ why, stop = .failure why ∧ (AtStart why ∨ InStep why)) ∨ m.RecorderFails config watch stop := by
  let Cause : Stop α → Prop := fun stop =>
    (∃ why, stop = .failure why ∧ (AtStart why ∨ InStep why)) ∨ m.RecorderFails config watch stop
  have only : (m.running config problem watch x budget).FailsOnly Cause := by
    unfold running
    refine Running.FailsOnly.bind (Running.failsOnly_ended ⟨(), Work.outcome_except_eq_ok.mpr valid⟩) fun _ _ _ _ =>
      Running.FailsOnly.bind (Running.failsOnly_lift fun stop failed => ?_) fun begun _ _ begins => ?_
    · obtain ⟨why, rfl, reason⟩ := guarded.start.of_error failed
      exact Or.inl ⟨why, rfl, Or.inl reason⟩
    have fits : Fits begun := guarded.start.of_ok (Running.outcome_of_onLedger_lift begins)
    refine Running.FailsOnly.bind (Running.failsOnly_ended (guarded.observed fits 0 0 History.empty))
      fun seen _ _ _ => Running.FailsOnly.bind Running.failsOnly_synchronize fun _ _ _ _ => ?_
    have going : (m.iterations config problem watch budget 0 begun seen.2).FailsOnly Cause :=
      guarded.iterations_failsOnly (fun why reason => Or.inl ⟨why, rfl, Or.inr reason⟩)
      (fun _ => Or.inr) budget 0 fits
        seen.2
    exact Running.FailsOnly.bind going fun summary _ _ _ =>
      Running.FailsOnly.bind ((store_failsOnly _).mono fun _ => Or.inr) fun _ _ _ _ => Running.failsOnly_pure _
  exact only ⟨source, records, 0, #[]⟩ _ stop (Prod.ext failed rfl)

theorem returned (guarded : m.Guarded config problem x Fits AtStart InStep) {source : σ} {records : ρ}
    {budget : Nat} {summary : Summary α S (budget + 1)}
    (ended : (m.run config problem watch source records x budget).1 = .ok summary) : Fits summary.state := by
  obtain ⟨_, last⟩ := (run_returned ended).reached
  exact guarded.fits last

end Guarded

namespace Unfailing

theorem run_fails (unfailing : m.Unfailing config problem x Holds) (valid : m.schema.validate config = .ok ())
    {source : σ} {records : ρ} {budget : Nat} {stop : Stop α}
    (failed : (m.run config problem watch source records x budget).1 = .error stop) :
    m.RecorderFails config watch stop :=
  (unfailing.guarded.run_fails valid failed).resolve_left fun ⟨_, _, never⟩ => never.elim id id

theorem returned (unfailing : m.Unfailing config problem x Holds) {source : σ} {records : ρ} {budget : Nat}
    {summary : Summary α S (budget + 1)}
    (ended : (m.run config problem watch source records x budget).1 = .ok summary) : Holds summary.state :=
  unfailing.guarded.returned ended

/-- Without a recorder such a run does return. -/
theorem run_ok (unfailing : m.Unfailing config problem x Holds) (valid : m.schema.validate config = .ok ())
    (unrecorded : watch.recorder = none) (source : σ) (records : ρ) (budget : Nat) :
    ∃ summary, (m.run config problem watch source records x budget).1 = .ok summary ∧ Holds summary.state := by
  cases ended : (m.run config problem watch source records x budget).1 with
  | ok summary => exact ⟨summary, rfl, unfailing.returned ended⟩
  | error stop => exact absurd unrecorded (unfailing.run_fails valid ended).1

theorem solve_ok {m : Method α P C S D Unit} (unfailing : m.Unfailing config problem x Holds)
    (valid : m.schema.validate config = .ok ()) (budget : Nat) :
    ∃ summary, (m.solve config problem x budget).outcome = .ok summary ∧ Holds summary.state := by
  have unrecorded : (Watch.none : Watch α Unit).recorder = none := rfl
  exact unfailing.run_ok valid unrecorded () () budget

end Unfailing

end Method

end Downhill
