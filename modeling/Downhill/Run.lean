import Downhill.History
import Downhill.Method

namespace Downhill

/-- Where the record of a run is stored: told the series and the settings, it changes what it has
stored so far and either fails or notes something. -/
structure Recorder (α ρ : Type) where
  store : {places : Nat} → History α places → Settings α → ρ →
    ρ × Except (Failure α) (List (Event α))

/-- How a run is watched. -/
structure Watch (α ρ : Type) where
  /-- The record is stored after every so many iterations; zero stands for never. -/
  interval : Nat
  recorder : Option (Recorder α ρ)
  /-- What the clock shows when it is read after so many iterations. -/
  clock : Nat → α

/-- A run that nobody watches. -/
def Watch.none {α ρ : Type} [Zero α] : Watch α ρ where
  interval := 0
  recorder := .none
  clock := fun _ => 0

/-- What outlives a run, however it ends. -/
structure Ledger (α σ ρ : Type) where
  source : σ
  records : ρ
  /-- How often the device was waited for. -/
  waits : Nat
  events : Array (Event α)

/-- A run under way. -/
abbrev Running (α σ ρ : Type) :=
  ExceptT (Stop α) (StateM (Ledger α σ ρ))

namespace Running

variable {α σ ρ β : Type}

def notes (es : List (Event α)) : Running α σ ρ Unit :=
  modify fun l => { l with events := l.events ++ es }

/-- An outcome as that of the run. -/
def settle : Except (Stop α) β → Running α σ ρ β
  | .ok b => pure b
  | .error stop => throw stop

/-- Work done within the run. -/
def work (w : Work α β) : Running α σ ρ β := do
  notes w.events
  settle w.outcome

instance : MonadLift (Work α) (Running α σ ρ) :=
  ⟨work⟩

/-- Wait until the device has done all its work. -/
def synchronize : Running α σ ρ Unit :=
  modify fun l => { l with waits := l.waits + 1 }

/-- A draw from the source. -/
def draw {D : Type} (next : σ → D × σ) : Running α σ ρ D :=
  modifyGet fun l =>
    let drawn := next l.source
    (drawn.1, { l with source := drawn.2 })

/-- The recorder's turn. -/
def store {places : Nat} (r : Recorder α ρ) (h : History α places) (settings : Settings α) :
    Running α σ ρ Unit := do
  let result ← modifyGet fun l =>
    let stored := r.store h settings l.records
    (stored.2, { l with records := stored.1 })
  notes (← work (.ofExcept result))

end Running

/-- What a run returns. -/
structure Summary (α S : Type) (places : Nat) where
  state : S
  history : History α places
  /-- The number of iterations made. -/
  iterations : Nat
  finished : Bool

/-- The last objective recorded, if there is one. -/
def Summary.finalValue {α S : Type} {places : Nat} (s : Summary α S places) : Option α :=
  s.history.at? History.objectiveName s.iterations

namespace Method

variable {α P C S D σ ρ : Type} [Scalar α]

/-- The objective at a state. -/
def objectiveAt (m : Method α P C S D σ) (problem : P) (s : S) : Checked α :=
  (m.objective problem).value (m.point s)

/-- What the method measures at a state, by name. -/
def measured (m : Method α P C S D σ) (problem : P) (s : S) : Checked (List (String × α)) :=
  m.measures.mapM fun measure => do return (measure.name, ← measure.value problem s)

/-- Everything measured at a state, recorded at a place. -/
def observe {places : Nat} (m : Method α P C S D σ) (problem : P) (time : α) (place : Nat) (s : S)
    (h : History α places) : Checked (α × History α places) := do
  let value ← m.objectiveAt problem s
  let others ← m.measured problem s
  let h := (h.record History.timeName place time).record History.objectiveName place value
  return (value, h.recordAll place others)

/-- The record stored, where there is a recorder. -/
def store {places : Nat} (m : Method α P C S D σ) (config : C) (watch : Watch α ρ)
    (h : History α places) : Running α σ ρ Unit :=
  match watch.recorder with
  | none => pure ()
  | some r => do
    let settings ← (Work.ofExcept (m.schema.toSettings config) : Work α (Settings α))
    Running.store r h settings

/-- The report after an iteration, where one is due. -/
def report {places : Nat} (m : Method α P C S D σ) (config : C) (watch : Watch α ρ) (done : Nat)
    (value : α) (h : History α places) : Running α σ ρ Unit := do
  if watch.interval ≠ 0 ∧ done % watch.interval = 0 then
    Running.notes [.progress m.tag done value]
    m.store config watch h

/-- The iterations that are left, after some that are done. They end early with a finished state or a failure. -/
def iterations {places : Nat} (m : Method α P C S D σ) (config : C) (problem : P)
    (watch : Watch α ρ) :
    (left : Nat) → (done : Nat) → S → History α places → Running α σ ρ (Summary α S places)
  | 0, done, s, h => return ⟨s, h, done, m.finished s⟩
  | left + 1, done, s, h => do
    if m.finished s then
      Running.notes [.stopped m.tag done]
      return ⟨s, h, done, m.finished s⟩
    else
      let drawn ← Running.draw (m.draw config)
      let s ← m.step config problem drawn s
      Running.synchronize
      let (value, h) ← (Work.ofChecked (m.observe problem (watch.clock (done + 1)) (done + 1) s h) :
        Work α (α × History α places))
      m.report config watch (done + 1) value h
      iterations m config problem watch left (done + 1) s h

/-- The whole run: the configuration is checked again, the method started, the iterations made, and
the record stored once more. -/
def running (m : Method α P C S D σ) (config : C) (problem : P) (watch : Watch α ρ) (x : Coords α)
    (budget : Nat) : Running α σ ρ (Summary α S (budget + 1)) := do
  (Work.ofExcept (m.schema.validate config) : Work α Unit)
  let s ← m.start config problem x
  let (_, h) ← (Work.ofChecked (m.observe problem 0 0 s History.empty) :
    Work α (α × History α (budget + 1)))
  Running.synchronize
  let summary ← m.iterations config problem watch budget 0 s h
  m.store config watch summary.history
  return summary

/-- How a run ended, and what outlives it. -/
def run (m : Method α P C S D σ) (config : C) (problem : P) (watch : Watch α ρ) (source : σ)
    (records : ρ) (x : Coords α) (budget : Nat) :
    Except (Stop α) (Summary α S (budget + 1)) × Ledger α σ ρ :=
  (m.running config problem watch x budget).run.run ⟨source, records, 0, #[]⟩

/-- A run inside other work, watched by nobody. -/
def solve (m : Method α P C S D Unit) (config : C) (problem : P) (x : Coords α) (budget : Nat) :
    Work α (Summary α S (budget + 1)) :=
  let result := m.run config problem (Watch.none : Watch α Unit) () () x budget
  ⟨result.2.events.toList, result.1⟩

end Method

end Downhill
