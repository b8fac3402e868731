import Mathlib
import Downhill.Proofs.Outcome
import Downhill.Search.Backtracking

namespace Downhill.Backtracking

variable {α β : Type} [Mul α]

/-- The step that is tried after so many shrinks. -/
def trialStep (initial factor : α) : Nat → α
  | 0 => initial
  | j + 1 => trialStep initial factor j * factor

/-- The trials that were made, from those after `first` shrinks to the last, of which there are at
most so many. -/
structure EndsAt (attempt : α → Checked (β × Bool)) (initial factor : α) (first most : Nat)
    (last : Backtracking α β) : Prop where
  step : last.step = trialStep initial factor last.shrinks
  trial : attempt last.step = .ok (last.trial, last.accepted)
  refused : ∀ j, first ≤ j → j < last.shrinks →
    ∃ b, attempt (trialStep initial factor j) = .ok (b, false)
  started : first ≤ last.shrinks
  within : last.shrinks ≤ most
  used : last.accepted = false → last.shrinks = most

theorem resume_endsAt {attempt : α → Checked (β × Bool)} {initial factor : α} {allowed : Nat}
    {last : Backtracking α β} (first : Nat)
    (found : resume attempt factor allowed (trialStep initial factor first) first = .ok last) :
    EndsAt attempt initial factor first (first + allowed) last := by
  induction allowed generalizing first with
  | zero =>
    obtain ⟨⟨trial, accepted⟩, made, done⟩ := Outcome.bind_eq_ok.mp found
    cases done
    exact ⟨rfl, made, fun j since before => absurd (since.trans_lt before) (lt_irrefl _), le_rfl,
      le_rfl, fun _ => rfl⟩
  | succ allowed ih =>
    obtain ⟨⟨trial, accepted⟩, made, rest⟩ := Outcome.bind_eq_ok.mp found
    cases accepted with
    | true =>
      cases rest
      exact ⟨rfl, made, fun j since before => absurd (since.trans_lt before) (lt_irrefl _), le_rfl,
        Nat.le_add_right _ _, nofun⟩
    | false =>
      have ends := ih (first + 1) rest
      refine ⟨ends.step, ends.trial, fun j since before => ?_, ?_, ?_, fun spent => ?_⟩
      · rcases since.eq_or_lt with rfl | later
        · exact ⟨trial, made⟩
        · exact ends.refused j later before
      · exact (Nat.le_succ first).trans ends.started
      · exact ends.within.trans (by omega)
      · exact (ends.used spent).trans (by omega)

theorem run_endsAt {attempt : α → Checked (β × Bool)} {initial factor : α} {allowed : Nat}
    {last : Backtracking α β} (found : run attempt factor allowed initial = .ok last) :
    EndsAt attempt initial factor 0 allowed last := by
  have ends := resume_endsAt 0 found
  rwa [Nat.zero_add] at ends

/-- The steps at which a search makes its trials, in their order. -/
def tried (attempt : α → Checked (β × Bool)) (factor : α) : (allowed : Nat) → (t : α) → List α
  | 0, t => [t]
  | allowed + 1, t =>
    match attempt t with
    | .ok (_, false) => t :: tried attempt factor allowed (t * factor)
    | _ => [t]

/-- A search ends with its last trial, after one shrink fewer than it has made trials. -/
theorem resume_tried {attempt : α → Checked (β × Bool)} {factor : α} {allowed : Nat} {t : α}
    {shrinks : Nat} {last : Backtracking α β}
    (found : resume attempt factor allowed t shrinks = .ok last) :
    (tried attempt factor allowed t).getLast? = some last.step ∧
      shrinks + (tried attempt factor allowed t).length = last.shrinks + 1 := by
  induction allowed generalizing t shrinks with
  | zero =>
    obtain ⟨trial, made, done⟩ := Outcome.bind_eq_ok.mp found
    cases done
    exact ⟨rfl, rfl⟩
  | succ allowed ih =>
    obtain ⟨⟨trial, accepted⟩, made, rest⟩ := Outcome.bind_eq_ok.mp found
    cases accepted with
    | true =>
      cases rest
      simp only [tried, made]
      exact ⟨rfl, rfl⟩
    | false =>
      obtain ⟨final, count⟩ := ih rest
      simp only [tried, made]
      constructor
      · rw [List.getLast?_cons, final, Option.getD_some]
      · rw [List.length_cons, ← count, Nat.add_comm _ 1, Nat.add_assoc]

theorem trialStep_mul (initial factor : α) (j : Nat) :
    trialStep (initial * factor) factor j = trialStep initial factor (j + 1) := by
  induction j with
  | zero => rfl
  | succ j ih => exact congrArg (· * factor) ih

/-- Every trial in front of the last one was refused, also where the search comes to no end. -/
theorem tried_refused {attempt : α → Checked (β × Bool)} {factor : α} {allowed : Nat} {t : α} {j : Nat}
    (early : j + 1 < (tried attempt factor allowed t).length) :
    ∃ b, attempt (trialStep t factor j) = .ok (b, false) := by
  induction allowed generalizing t j with
  | zero => exact absurd early (by simp [tried])
  | succ allowed ih =>
    unfold tried at early
    split at early
    · rename_i b refused
      cases j with
      | zero => exact ⟨b, refused⟩
      | succ j =>
        rw [← trialStep_mul]
        exact ih (Nat.lt_of_succ_lt_succ early)
    · exact absurd early (by simp)

/-- A step at which the trial is made and accepted. -/
def Accepts (attempt : α → Checked (β × Bool)) (t : α) : Prop :=
  ∃ trial, attempt t = .ok (trial, true)

/-- The search ends at the first step that is accepted, or has refused all those that are allowed. -/
theorem EndsAt.first_accepted {attempt : α → Checked (β × Bool)} {initial factor : α} {most : Nat}
    {last : Backtracking α β} (ends : EndsAt attempt initial factor 0 most last) :
    (last.accepted = true ∧ last.shrinks ≤ most ∧ Accepts attempt last.step ∧
      ∀ j < last.shrinks, ¬ Accepts attempt (trialStep initial factor j)) ∨
    (last.accepted = false ∧ ∀ j ≤ most, ¬ Accepts attempt (trialStep initial factor j)) := by
  have early : ∀ j < last.shrinks, ¬ Accepts attempt (trialStep initial factor j) := by
    rintro j before ⟨trial, made⟩
    obtain ⟨other, refused⟩ := ends.refused j (Nat.zero_le j) before
    cases refused.symm.trans made
  cases accepted : last.accepted with
  | true => exact Or.inl ⟨rfl, ends.within, ⟨last.trial, accepted ▸ ends.trial⟩, early⟩
  | false =>
    refine Or.inr ⟨rfl, fun j allowed => ?_⟩
    have used := ends.used accepted
    rcases allowed.lt_or_eq with before | rfl
    · exact early j (used ▸ before)
    · rintro ⟨trial, made⟩
      rw [← used, ← ends.step, ends.trial, accepted] at made
      cases made

/-- The number of shrinks is the least that leads to a step which is accepted, or the greatest allowed. -/
theorem EndsAt.isLeast {attempt : α → Checked (β × Bool)} {initial factor : α} {most : Nat}
    {last : Backtracking α β} (ends : EndsAt attempt initial factor 0 most last) {Good : Nat → Prop}
    (accepts : ∀ j, Accepts attempt (trialStep initial factor j) ↔ Good j) :
    IsLeast {j | Good j ∨ j = most} last.shrinks := by
  rcases ends.first_accepted with ⟨_, within, good, early⟩ | ⟨refused, never⟩
  · rw [ends.step] at good
    refine ⟨Or.inl ((accepts _).mp good), ?_⟩
    rintro j (other | rfl)
    · exact not_lt.mp fun before => early j before ((accepts j).mpr other)
    · exact within
  · have used := ends.used refused
    refine ⟨Or.inr used, ?_⟩
    rintro j (other | rfl)
    · exact not_lt.mp fun before => never j (before.le.trans_eq used) ((accepts j).mpr other)
    · exact used.le

/-- Where every trial can be made, at steps that a shrink does not leave, the search comes to an end. -/
theorem resume_ok_of_keeps {attempt : α → Checked (β × Bool)} {factor : α} {Fits : α → Prop}
    (total : ∀ t, Fits t → ∃ trial, attempt t = .ok trial) (keeps : ∀ t, Fits t → Fits (t * factor))
    (allowed : Nat) {t : α} (fits : Fits t) (shrinks : Nat) :
    ∃ last, resume attempt factor allowed t shrinks = .ok last := by
  induction allowed generalizing t shrinks with
  | zero =>
    obtain ⟨trial, made⟩ := total t fits
    exact ⟨_, Outcome.bind_eq_ok.mpr ⟨trial, made, rfl⟩⟩
  | succ allowed ih =>
    obtain ⟨⟨trial, accepted⟩, made⟩ := total t fits
    cases accepted with
    | true => exact ⟨_, Outcome.bind_eq_ok.mpr ⟨_, made, rfl⟩⟩
    | false =>
      obtain ⟨last, rest⟩ := ih (keeps t fits) (shrinks + 1)
      exact ⟨last, Outcome.bind_eq_ok.mpr ⟨_, made, rest⟩⟩

theorem resume_ok {attempt : α → Checked (β × Bool)} (total : ∀ t, ∃ trial, attempt t = .ok trial)
    (factor : α) (allowed : Nat) (t : α) (shrinks : Nat) :
    ∃ last, resume attempt factor allowed t shrinks = .ok last :=
  resume_ok_of_keeps (fun t (_ : True) => total t) (fun _ held => held) allowed trivial shrinks

/-- Where every trial can be made, the search ends at the first of those allowed that is good, or has tried them
all. -/
theorem run_first {attempt : α → Checked (β × Bool)} {initial factor : α} {result : Nat → β} {Good : Nat → Prop}
    (tries : ∀ j, ∃ accepted, attempt (trialStep initial factor j) = .ok (result j, accepted) ∧
      (accepted = true ↔ Good j)) (most : Nat) :
    (∃ j, IsLeast {i | i ≤ most ∧ Good i} j ∧
      run attempt factor most initial = .ok ⟨trialStep initial factor j, result j, j, true⟩) ∨
    ((∀ j ≤ most, ¬ Good j) ∧
      run attempt factor most initial = .ok ⟨trialStep initial factor most, result most, most, false⟩) := by
  have total : ∀ t, (∃ j, trialStep initial factor j = t) → ∃ trial, attempt t = .ok trial := by
    rintro t ⟨j, rfl⟩
    obtain ⟨accepted, made, _⟩ := tries j
    exact ⟨_, made⟩
  obtain ⟨⟨t, trial, k, accepted⟩, searched⟩ :=
    resume_ok_of_keeps total (fun t ⟨j, here⟩ => ⟨j + 1, congrArg (· * factor) here⟩) most
      (t := initial) ⟨0, rfl⟩ 0
  have ends := run_endsAt searched
  obtain rfl : t = trialStep initial factor k := ends.step
  have accepts : ∀ j, Accepts attempt (trialStep initial factor j) ↔ Good j := by
    intro j
    obtain ⟨accepted, made, good⟩ := tries j
    rw [← good]
    constructor
    · rintro ⟨b, also⟩
      exact (Prod.mk.inj (Except.ok.inj (made.symm.trans also))).2
    · rintro rfl
      exact ⟨_, made⟩
  obtain ⟨answer, made, _⟩ := tries k
  obtain ⟨rfl, rfl⟩ := Prod.mk.inj (Except.ok.inj (made.symm.trans ends.trial))
  have first := ends.first_accepted
  simp only [accepts] at first
  rcases first with ⟨rfl, within, good, early⟩ | ⟨rfl, never⟩
  · refine Or.inl ⟨k, ⟨⟨within, good⟩, fun j other => ?_⟩, searched⟩
    exact not_lt.mp fun before => early j before other.2
  · obtain rfl : k = most := ends.used rfl
    exact Or.inr ⟨never, searched⟩

theorem trialStep_eq (initial factor : ℝ) (j : Nat) :
    trialStep initial factor j = initial * factor ^ j := by
  induction j with
  | zero => rw [trialStep, pow_zero, mul_one]
  | succ j ih => rw [trialStep, ih, pow_succ, mul_assoc]

/-- A search that gives its last step if it was accepted, and zero otherwise, gives the first of the
trials that is accepted. -/
theorem EndsAt.step_cases {attempt : ℝ → Checked (β × Bool)} {initial factor : ℝ} {most : Nat}
    {last : Backtracking ℝ β} (ends : EndsAt attempt initial factor 0 most last) {Good : ℝ → Prop}
    (accepts : ∀ t, Accepts attempt t ↔ Good t) {t : ℝ}
    (found : last.accepted = true ∧ t = last.step ∨ last.accepted = false ∧ t = 0) :
    (∃ j ≤ most, t = initial * factor ^ j ∧ Good t ∧ ∀ i < j, ¬ Good (initial * factor ^ i)) ∨
      ((∀ j ≤ most, ¬ Good (initial * factor ^ j)) ∧ t = 0) := by
  have first := ends.first_accepted
  simp only [accepts, trialStep_eq] at first
  rcases found with ⟨accepted, rfl⟩ | ⟨refused, never⟩
  · rcases first with ⟨_, within, good, early⟩ | ⟨other, _⟩
    · exact Or.inl ⟨last.shrinks, within, ends.step.trans (trialStep_eq _ _ _), good, early⟩
    · cases accepted.symm.trans other
  · rcases first with ⟨other, _⟩ | ⟨_, all⟩
    · cases refused.symm.trans other
    · exact Or.inr ⟨all, never⟩

theorem trialStep_pos {initial factor : ℝ} (positive : 0 < initial) (above : 0 < factor) (j : Nat) :
    0 < trialStep initial factor j := by
  rw [trialStep_eq]
  exact mul_pos positive (pow_pos above j)

/-- Between zero and the first step, if the factor does not stretch. -/
theorem trialStep_bounds {initial factor : ℝ} (nonneg : 0 ≤ initial) (positive : 0 ≤ factor)
    (shrinking : factor ≤ 1) (j : Nat) :
    0 ≤ trialStep initial factor j ∧ trialStep initial factor j ≤ initial := by
  induction j with
  | zero => exact ⟨nonneg, le_rfl⟩
  | succ j ih =>
    exact ⟨mul_nonneg ih.1 positive, (mul_le_of_le_one_right ih.1 shrinking).trans ih.2⟩

/-- After a trial at a step that was not small the next one is smaller by a shrink alone. -/
theorem trialStep_ge {initial factor bound : ℝ} (nonneg : 0 ≤ factor) {k : Nat}
    (large : ∀ j < k, bound ≤ trialStep initial factor j) :
    min initial (factor * bound) ≤ trialStep initial factor k := by
  cases k with
  | zero => exact min_le_left _ _
  | succ j =>
    refine (min_le_right _ _).trans ?_
    rw [trialStep, mul_comm factor]
    exact mul_le_mul_of_nonneg_right (large j (Nat.lt_succ_self j)) nonneg

end Downhill.Backtracking
