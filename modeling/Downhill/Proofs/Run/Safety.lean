import Downhill.Proofs.Run.Failures

namespace Downhill.Method

variable {α P C S D σ : Type} [Scalar α]

/-- The start and the step from every state that is reached have a result of the right shape, or fail for one of the
reasons given. What is measured at a state has a value. And a run, whoever watches it, returns a state of that
shape, or fails for one of these reasons, or where its recorder does. -/
structure Safe (m : Method α P C S D σ) (config : C) (problem : P) (x : Coords α) (Fits : S → Prop)
    (AtStart InStep : Failure α → Prop) : Prop where
  start : (m.start config problem x).Ends Fits AtStart
  step : ∀ source i s between, m.after config problem x source i = .ok (s, between) →
    Fits s ∧ (m.step config problem (m.draw config between).1 s).Ends Fits InStep
  measured : ∀ source i s between, m.after config problem x source i = .ok (s, between) →
    ∀ quantity ∈ m.tracked problem, ∃ v, quantity.2 s = .ok v
  run : ∀ {ρ : Type} (watch : Watch α ρ) (source : σ) (records : ρ) (budget : Nat),
    (∃ summary, (m.run config problem watch source records x budget).1 = .ok summary ∧ Fits summary.state) ∨
      ∃ why, (m.run config problem watch source records x budget).1 = .error (.failure why) ∧
        (AtStart why ∨ InStep why ∨ m.RecorderFails config watch (.failure why))

variable {m : Method α P C S D σ} {config : C} {problem : P} {x : Coords α} {Fits : S → Prop}
  {AtStart InStep : Failure α → Prop}

theorem RecorderFails.failure {ρ : Type} {watch : Watch α ρ} {stop : Stop α}
    (fails : m.RecorderFails config watch stop) : ∃ why, stop = .failure why := by
  obtain ⟨_, ⟨why, _, same⟩ | ⟨_, _, _, why, _, _, _, _, same, _⟩⟩ := fails
  · exact ⟨why, same⟩
  · exact ⟨why, same⟩

/-- A guarded method with a valid configuration is safe. -/
theorem Guarded.safe (guarded : m.Guarded config problem x Fits AtStart InStep)
    (valid : m.schema.validate config = .ok ()) : m.Safe config problem x Fits AtStart InStep where
  start := guarded.start
  step _ _ s between reached := ⟨guarded.fits reached, guarded.step between s (guarded.fits reached)⟩
  measured _ _ s _ reached := guarded.tracked s (guarded.fits reached)
  run watch source records budget := by
    cases ended : (m.run config problem watch source records x budget).1 with
    | ok summary => exact Or.inl ⟨summary, rfl, guarded.returned ended⟩
    | error stop =>
      refine Or.inr ?_
      obtain ⟨why, rfl, reason⟩ | recorder := guarded.run_fails valid ended
      · exact ⟨why, rfl, reason.imp_right Or.inl⟩
      · obtain ⟨why, rfl⟩ := recorder.failure
        exact ⟨why, rfl, Or.inr (Or.inr recorder)⟩

namespace Safe

variable (safe : m.Safe config problem x Fits AtStart InStep)

include safe

theorem weaken {Weaker : S → Prop} (weaker : ∀ s, Fits s → Weaker s) :
    m.Safe config problem x Weaker AtStart InStep where
  start := safe.start.weaken weaker
  step source i s between reached :=
    let ⟨fits, ends⟩ := safe.step source i s between reached
    ⟨weaker s fits, ends.weaken weaker⟩
  measured := safe.measured
  run watch source records budget :=
    (safe.run watch source records budget).imp_left fun ⟨summary, returned, fits⟩ =>
      ⟨summary, returned, weaker _ fits⟩

variable {ρ : Type} {watch : Watch α ρ} (unrecorded : watch.recorder = none)

include unrecorded

/-- Without a recorder nothing else can fail in a run. -/
theorem run_of_unrecorded (source : σ) (records : ρ) (budget : Nat) :
    (∃ summary, (m.run config problem watch source records x budget).1 = .ok summary ∧ Fits summary.state) ∨
      ∃ why, (m.run config problem watch source records x budget).1 = .error (.failure why) ∧
        (AtStart why ∨ InStep why) := by
  refine (safe.run watch source records budget).imp_right fun ⟨why, failed, reason⟩ => ⟨why, failed, ?_⟩
  exact reason.imp_right fun later => later.resolve_right fun recorder => recorder.1 unrecorded

variable (accepted : ∀ why, ¬AtStart why)

include accepted

/-- From a start that is accepted, a run fails at most for a reason of its steps. -/
theorem run_of_accepted (source : σ) (records : ρ) (budget : Nat) :
    (∃ summary, (m.run config problem watch source records x budget).1 = .ok summary ∧ Fits summary.state) ∨
      ∃ why, (m.run config problem watch source records x budget).1 = .error (.failure why) ∧ InStep why :=
  (safe.run_of_unrecorded unrecorded source records budget).imp_right fun ⟨why, failed, reason⟩ =>
    ⟨why, failed, reason.resolve_left (accepted why)⟩

/-- And where no step has a reason to fail, it returns. -/
theorem run_ok (goes : ∀ why, ¬InStep why) (source : σ) (records : ρ) (budget : Nat) :
    ∃ summary, (m.run config problem watch source records x budget).1 = .ok summary ∧ Fits summary.state :=
  (safe.run_of_accepted unrecorded accepted source records budget).resolve_right fun ⟨why, _, reason⟩ =>
    goes why reason

end Safe

end Downhill.Method
