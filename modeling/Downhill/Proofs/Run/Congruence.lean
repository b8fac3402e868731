import Downhill.Proofs.Run.Ledger
import Downhill.Proofs.Run.Trajectory

namespace Downhill

namespace Running

variable {α σ ρ β γ : Type}

/-- Sequences are the same on a ledger where their first parts are, and their second parts wherever the first
lead. -/
theorem onLedger_bind_congr {x y : Running α σ ρ β} {f g : β → Running α σ ρ γ} {l : Ledger α σ ρ}
    (first : x.onLedger l = y.onLedger l)
    (second : ∀ b l', y.onLedger l = (.ok b, l') → (f b).onLedger l' = (g b).onLedger l') :
    (x >>= f).onLedger l = (y >>= g).onLedger l := by
  obtain ⟨outcome, between, ended⟩ : ∃ outcome between, y.onLedger l = (outcome, between) := ⟨_, _, rfl⟩
  cases outcome with
  | ok b =>
    rw [onLedger_bind_ok (first.trans ended), onLedger_bind_ok ended]
    exact second b between ended
  | error why => rw [onLedger_bind_error (first.trans ended), onLedger_bind_error ended]

end Running

namespace Method

variable {α P C S D σ ρ : Type} [Scalar α] {m : Method α P C S D σ} {draw : C → σ → D × σ}
  {step : C → P → D → S → Work α S} {config : C} {problem : P} {watch : Watch α ρ} {x : Coords α} {Holds : S → Prop}

theorem iterations_congr (draws : draw config = m.draw config)
    (steps : ∀ drawn s, Holds s → step config problem drawn s = m.step config problem drawn s)
    (keeps : ∀ drawn s s', Holds s → (m.step config problem drawn s).outcome = .ok s' → Holds s') {places : Nat}
    (left done : Nat) {s : S} (holds : Holds s) (h : History α places) (l : Ledger α σ ρ) :
    ({ m with draw, step }.iterations config problem watch left done s h).onLedger l =
      (m.iterations config problem watch left done s h).onLedger l := by
  -- On the iterations left; what each of them keeps is the kind of the state.
  induction left generalizing done s h l with
  | zero => rfl
  | succ left ih =>
    unfold iterations
    dsimp only
    split
    · rfl
    rw [draws]
    refine Running.onLedger_bind_congr rfl fun drawn _ _ => ?_
    rw [steps drawn s holds]
    refine Running.onLedger_bind_congr rfl fun s' _ stepped => ?_
    have holds' := keeps drawn s s' holds (Running.outcome_of_onLedger_lift stepped)
    exact Running.onLedger_bind_congr rfl fun _ _ _ => Running.onLedger_bind_congr rfl fun seen _ _ =>
      Running.onLedger_bind_congr rfl fun _ _ _ => ih (done + 1) holds' seen.2 _

theorem run_congr (draws : draw config = m.draw config)
    (initial : ∀ s, (m.start config problem x).outcome = .ok s → Holds s)
    (steps : ∀ drawn s, Holds s → step config problem drawn s = m.step config problem drawn s)
    (keeps : ∀ drawn s s', Holds s → (m.step config problem drawn s).outcome = .ok s' → Holds s')
    (source : σ) (records : ρ) (budget : Nat) :
    { m with draw, step }.run config problem watch source records x budget =
      m.run config problem watch source records x budget := by
  change ({ m with draw, step }.running config problem watch x budget).onLedger _ =
    (m.running config problem watch x budget).onLedger _
  unfold running
  refine Running.onLedger_bind_congr rfl fun _ _ _ => Running.onLedger_bind_congr rfl fun s _ started => ?_
  have holds := initial s (Running.outcome_of_onLedger_lift started)
  exact Running.onLedger_bind_congr rfl fun seen _ _ => Running.onLedger_bind_congr rfl fun _ l _ =>
    Running.onLedger_bind_congr (iterations_congr draws steps keeps budget 0 holds seen.2 l) fun _ _ _ => rfl

end Method

end Downhill
