import Downhill.Proofs.Outcome
import Downhill.Run

namespace Downhill.Method

variable {α P C S D σ : Type}

/-- The state after so many steps and the source as it is then, or what stopped the method before.
Steps are made whether or not the state before was finished. -/
def after (m : Method α P C S D σ) (config : C) (problem : P) (x : Coords α) (source : σ) :
    Nat → Except (Stop α) (S × σ)
  | 0 => do
    let s ← (m.start config problem x).outcome
    return (s, source)
  | i + 1 => do
    let (s, source) ← m.after config problem x source i
    let drawn := m.draw config source
    let s ← (m.step config problem drawn.1 s).outcome
    return (s, drawn.2)

variable {m : Method α P C S D σ} {config : C} {problem : P} {x : Coords α} {source : σ}

theorem after_zero_eq_ok {s : S} {source' : σ} :
    m.after config problem x source 0 = .ok (s, source') ↔
      (m.start config problem x).outcome = .ok s ∧ source' = source := by
  simp only [after, Outcome.bind_eq_ok, Outcome.pure_eq_ok, Prod.mk.injEq]
  constructor
  · rintro ⟨s, started, rfl, rfl⟩
    exact ⟨started, rfl⟩
  · rintro ⟨started, rfl⟩
    exact ⟨s, started, rfl, rfl⟩

theorem after_succ_eq_ok {i : Nat} {s' : S} {source' : σ} :
    m.after config problem x source (i + 1) = .ok (s', source') ↔
      ∃ s between, m.after config problem x source i = .ok (s, between) ∧
        (m.step config problem (m.draw config between).1 s).outcome = .ok s' ∧
        source' = (m.draw config between).2 := by
  simp only [after, Outcome.bind_eq_ok, Outcome.pure_eq_ok, Prod.mk.injEq, Prod.exists]
  constructor
  · rintro ⟨s, between, reached, s', made, rfl, rfl⟩
    exact ⟨s, between, reached, made, rfl⟩
  · rintro ⟨s, between, reached, made, rfl⟩
    exact ⟨s, between, reached, s', made, rfl, rfl⟩

theorem after_succ_of_failed {i : Nat} {s : S} {between : σ} {stop : Stop α}
    (reached : m.after config problem x source i = .ok (s, between))
    (failed : (m.step config problem (m.draw config between).1 s).outcome = .error stop) :
    m.after config problem x source (i + 1) = .error stop := by
  rw [after, reached]
  simp only [bind, Except.bind, failed]

/-- The step from a state that is reached is the one to the next. -/
theorem step_of_after {i : Nat} {s s' : S} {between last : σ}
    (reached : m.after config problem x source i = .ok (s, between))
    (next : m.after config problem x source (i + 1) = .ok (s', last)) :
    (m.step config problem (m.draw config between).1 s).outcome = .ok s' := by
  obtain ⟨_, _, same, made, _⟩ := after_succ_eq_ok.mp next
  cases reached.symm.trans same
  exact made

/-- What the start establishes and every step keeps holds of every state that is reached. -/
theorem after_invariant {Holds : S → Prop}
    (initial : ∀ s, (m.start config problem x).outcome = .ok s → Holds s)
    (keeps : ∀ drawn s s', Holds s → (m.step config problem drawn s).outcome = .ok s' → Holds s')
    {i : Nat} {s : S} {source' : σ} (reached : m.after config problem x source i = .ok (s, source')) :
    Holds s := by
  induction i generalizing s source' with
  | zero => exact initial s (after_zero_eq_ok.mp reached).1
  | succ i ih =>
    obtain ⟨before, between, earlier, made, _⟩ := after_succ_eq_ok.mp reached
    exact keeps _ before s (ih earlier) made

/-- Where the start and every step come to an end, with what was to hold there, so does every number of steps. -/
theorem after_reaches (Holds : Nat → S → Prop)
    (initial : ∃ s, (m.start config problem x).outcome = .ok s ∧ Holds 0 s)
    (keeps : ∀ i between s, Holds i s →
      ∃ s', (m.step config problem (m.draw config between).1 s).outcome = .ok s' ∧ Holds (i + 1) s') (i : Nat) :
    ∃ s source', m.after config problem x source i = .ok (s, source') ∧ Holds i s := by
  induction i with
  | zero =>
    obtain ⟨s, started, holds⟩ := initial
    exact ⟨s, source, after_zero_eq_ok.mpr ⟨started, rfl⟩, holds⟩
  | succ i ih =>
    obtain ⟨s, between, before, holds⟩ := ih
    obtain ⟨s', made, holds'⟩ := keeps i between s holds
    exact ⟨s', (m.draw config between).2, after_succ_eq_ok.mpr ⟨s, between, before, made, rfl⟩, holds'⟩

/-- What holds of some state and is kept by every step holds of every later one. -/
theorem after_keeps {Holds : S → Prop}
    (keeps : ∀ drawn s s', Holds s → (m.step config problem drawn s).outcome = .ok s' → Holds s')
    {i k : Nat} (later : i ≤ k) {s s' : S} {source' last : σ}
    (reached : m.after config problem x source i = .ok (s, source')) (holds : Holds s)
    (ended : m.after config problem x source k = .ok (s', last)) : Holds s' := by
  induction later generalizing s' last with
  | refl =>
    cases reached.symm.trans ended
    exact holds
  | step _ ih =>
    obtain ⟨before, between, earlier, made, _⟩ := after_succ_eq_ok.mp ended
    exact keeps _ before s' (ih earlier) made

/-- What stopped the method keeps it stopped. -/
theorem after_error_mono {i j : Nat} {stop : Stop α}
    (stopped : m.after config problem x source i = .error stop) (later : i ≤ j) :
    m.after config problem x source j = .error stop := by
  induction later with
  | refl => exact stopped
  | step _ ih => rw [after, ih]; rfl

/-- A state that is reached has a state before it after every smaller number of steps. -/
theorem after_ok_of_le {i j : Nat} {s : S} {last : σ}
    (reached : m.after config problem x source j = .ok (s, last)) (before : i ≤ j) :
    ∃ s' source', m.after config problem x source i = .ok (s', source') := by
  cases earlier : m.after config problem x source i with
  | ok state => exact ⟨state.1, state.2, rfl⟩
  | error stop =>
    rw [after_error_mono earlier before] at reached
    cases reached

/-- Where a step comes to an end exactly from the states that are ready for its draw, the method comes as far as
it finds such states. -/
theorem after_ok_iff (Fits : S → Prop) (Ready : D → S → Prop)
    (initial : ∃ s, (m.start config problem x).outcome = .ok s ∧ Fits s)
    (keeps : ∀ drawn s s', Fits s → (m.step config problem drawn s).outcome = .ok s' → Fits s')
    (steps : ∀ between s, Fits s → ((∃ s', (m.step config problem (m.draw config between).1 s).outcome = .ok s') ↔
      Ready (m.draw config between).1 s)) (k : Nat) :
    (∃ s last, m.after config problem x source k = .ok (s, last)) ↔
      ∀ i < k, ∀ s between, m.after config problem x source i = .ok (s, between) →
        Ready (m.draw config between).1 s := by
  obtain ⟨first, started, begins⟩ := initial
  have fits : ∀ {i s between}, m.after config problem x source i = .ok (s, between) → Fits s := fun reached =>
    after_invariant (fun s begun => Except.ok.inj (started.symm.trans begun) ▸ begins) keeps reached
  constructor
  · rintro ⟨s, last, ended⟩ i early s' between reached
    obtain ⟨next, _, there⟩ := after_ok_of_le ended early
    exact (steps between s' (fits reached)).mp ⟨next, step_of_after reached there⟩
  · intro ready
    induction k with
    | zero => exact ⟨first, source, after_zero_eq_ok.mpr ⟨started, rfl⟩⟩
    | succ k ih =>
      obtain ⟨s, between, reached⟩ := ih fun i early => ready i (Nat.lt_succ_of_lt early)
      obtain ⟨s', made⟩ := (steps between s (fits reached)).mpr (ready k (Nat.lt_succ_self k) s between reached)
      exact ⟨s', _, after_succ_eq_ok.mpr ⟨s, between, reached, made, rfl⟩⟩

/-- There is a state after so many steps, and something holds of it. -/
def HoldsAfter (m : Method α P C S D σ) (config : C) (problem : P) (x : Coords α) (source : σ)
    (Holds : S → Prop) (i : Nat) : Prop :=
  ∃ s source', m.after config problem x source i = .ok (s, source') ∧ Holds s

theorem holdsAfter_iff {Holds : S → Prop} {i : Nat} {s : S} {source' : σ}
    (reached : m.after config problem x source i = .ok (s, source')) :
    m.HoldsAfter config problem x source Holds i ↔ Holds s := by
  constructor
  · rintro ⟨_, _, same, holds⟩
    cases reached.symm.trans same
    exact holds
  · exact fun holds => ⟨s, source', reached, holds⟩

section Ends

variable (m config problem x source)

/-- Whether there is a state after so many steps, and it is finished. -/
def finishedAfter (i : Nat) : Bool :=
  match m.after config problem x source i with
  | .ok (s, _) => m.finished s
  | .error _ => false

/-- The least number of steps within the budget that leads to a finished state, or the budget if there
is none. -/
def lastIndex (budget : Nat) : Nat :=
  ((List.range (budget + 1)).find? (m.finishedAfter config problem x source)).getD budget

end Ends

variable {budget : Nat}

theorem finishedAfter_eq {i : Nat} {s : S} {source' : σ}
    (reached : m.after config problem x source i = .ok (s, source')) :
    m.finishedAfter config problem x source i = m.finished s := by
  rw [finishedAfter, reached]

theorem lastIndex_spec (m : Method α P C S D σ) (config : C) (problem : P) (x : Coords α) (source : σ)
    (budget : Nat) : m.lastIndex config problem x source budget ≤ budget ∧
    (∀ i < m.lastIndex config problem x source budget,
      m.finishedAfter config problem x source i = false) ∧
    (m.finishedAfter config problem x source (m.lastIndex config problem x source budget) = true ∨
      m.lastIndex config problem x source budget = budget) := by
  unfold lastIndex
  cases found : (List.range (budget + 1)).find? (m.finishedAfter config problem x source) with
  | none =>
    have never := List.find?_range_eq_none.mp found
    refine ⟨Nat.le_refl _, fun i before => ?_, Or.inr rfl⟩
    rw [Option.getD_none] at before
    simpa using never i (by omega)
  | some first =>
    obtain ⟨finished, within, before⟩ := List.find?_range_eq_some.mp found
    rw [List.mem_range] at within
    exact ⟨Nat.le_of_lt_succ within, fun i earlier => by simpa using before i earlier, Or.inl finished⟩

/-- A run that has met no finished state before ends where it meets one, or where its budget ends. -/
theorem lastIndex_eq {i : Nat} (within : i ≤ budget)
    (unfinished : ∀ j < i, m.finishedAfter config problem x source j = false)
    (ends : m.finishedAfter config problem x source i = true ∨ i = budget) :
    m.lastIndex config problem x source budget = i := by
  obtain ⟨bound, before, last⟩ := m.lastIndex_spec config problem x source budget
  rcases Nat.lt_trichotomy (m.lastIndex config problem x source budget) i with less | same | more
  · rcases last with finished | whole
    · rw [unfinished _ less] at finished
      cases finished
    · omega
  · exact same
  · rcases ends with finished | rfl
    · rw [before i more] at finished
      cases finished
    · omega

/-- A run that has met no finished state goes on within its budget. -/
theorem lt_lastIndex {i : Nat} (within : i < budget)
    (unfinished : ∀ j ≤ i, m.finishedAfter config problem x source j = false) :
    i < m.lastIndex config problem x source budget := by
  obtain ⟨bound, before, last⟩ := m.lastIndex_spec config problem x source budget
  refine Nat.lt_of_not_le fun less => ?_
  rcases last with finished | same
  · rw [unfinished _ less] at finished
    cases finished
  · omega

end Downhill.Method
