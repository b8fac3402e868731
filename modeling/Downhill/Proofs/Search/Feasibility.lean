import Downhill.Proofs.Problems
import Downhill.Proofs.Search.Shrinking
import Downhill.Search.Feasible

namespace Downhill.Feasible

variable {α : Type} [Scalar α] {c : Constraints α} {x d : Coords α}

/-- Moved by the step, the point is feasible. -/
def Reaches (c : Constraints α) (x d : Coords α) (t : α) : Prop :=
  ∃ y, x.advance t d = .ok y ∧ c.feasible y = .ok true

theorem accepts_attempt_iff {t : α} : Backtracking.Accepts (attempt c x d) t ↔ Reaches c x d t := by
  constructor
  · rintro ⟨⟨⟩, made⟩
    simp only [attempt, Outcome.bind_eq_ok, Outcome.pure_eq_ok, Prod.mk.injEq] at made
    obtain ⟨y, moved, inside, feasible, _, rfl⟩ := made
    exact ⟨y, moved, feasible⟩
  · rintro ⟨y, moved, feasible⟩
    exact ⟨(), by simp only [attempt, moved, feasible, bind, Except.bind]; rfl⟩

theorem run_eq_ok {tag : String} {initial factor t : α} :
    (run c tag x d initial factor).outcome = .ok t ↔
      ∃ last, Backtracking.run (attempt c x d) factor maxShrinks initial = .ok last ∧
        (last.accepted = true ∧ t = last.step ∨ last.accepted = false ∧ t = 0) := by
  simp only [run, Work.outcome_bind_eq_ok, Work.outcome_checked_eq_ok]
  refine exists_congr fun last => and_congr_right fun _ => ?_
  cases last.accepted with
  | true =>
    simp only [if_true, true_and, Bool.true_eq_false, false_and, or_false]
    exact ⟨fun ended => (Except.ok.inj ended).symm, fun same => congrArg Except.ok same.symm⟩
  | false =>
    simp only [Bool.false_eq_true, if_false, false_and, true_and, false_or]
    exact ⟨fun ended => (Except.ok.inj ended).symm, fun same => congrArg Except.ok same.symm⟩

/-- The search has accepted its last trial, which was made at `y`. -/
structure AcceptedLast (c : Constraints α) (x d : Coords α) (initial factor t : α) (y : Coords α) : Prop
    where
  last : (Backtracking.tried (attempt c x d) factor maxShrinks initial).getLast? = some t
  moved : x.advance t d = .ok y
  feasible : c.feasible y = .ok true

/-- Where the search accepts a trial, the point moved by what it gives is the one it tried. -/
theorem acceptedLast_of_run {tag : String} {initial factor t : α} {y : Coords α}
    (made : (run c tag x d initial factor).outcome = .ok t) (moved : x.advance t d = .ok y) :
    ∃ last, Backtracking.run (attempt c x d) factor maxShrinks initial = .ok last ∧
      (last.accepted = true → AcceptedLast c x d initial factor t y) := by
  obtain ⟨last, searched, chosen⟩ := run_eq_ok.mp made
  refine ⟨last, searched, fun accepted => ?_⟩
  obtain ⟨_, rfl⟩ | ⟨refused, _⟩ := chosen
  · have trial := (Backtracking.run_endsAt searched).trial
    rw [accepted] at trial
    obtain ⟨z, tested, feasible⟩ := accepts_attempt_iff.mp ⟨_, trial⟩
    obtain rfl := Except.ok.inj (tested.symm.trans moved)
    exact ⟨(Backtracking.resume_tried searched).1, moved, feasible⟩
  · cases accepted.symm.trans refused

theorem run_cases {c : Constraints ℝ} {x d : Coords ℝ} {tag : String} {initial factor t : ℝ}
    (made : (run c tag x d initial factor).outcome = .ok t) :
    (∃ j ≤ 100, t = initial * factor ^ j ∧ Reaches c x d t ∧
        ∀ i < j, ¬ Reaches c x d (initial * factor ^ i)) ∨
      ((∀ j ≤ 100, ¬ Reaches c x d (initial * factor ^ j)) ∧ t = 0) := by
  obtain ⟨last, searched, found⟩ := run_eq_ok.mp made
  exact (Backtracking.run_endsAt searched).step_cases (fun _ => accepts_attempt_iff) found

theorem run_ok {n : Nat} (conforming : c.Conforming n) (dimension : x.size = n) (size : d.size = n)
    (tag : String) (initial factor : α) : ∃ t, (run c tag x d initial factor).outcome = .ok t := by
  have total : ∀ t, ∃ trial, attempt c x d t = .ok trial := by
    intro t
    obtain ⟨y, moved, ySize⟩ := Coords.advance_ok dimension size t
    obtain ⟨values, atValues, _⟩ := conforming.values y ySize
    exact ⟨_, by simp only [attempt, Constraints.feasible, moved, atValues, bind, Except.bind]; rfl⟩
  obtain ⟨last, searched⟩ := Backtracking.resume_ok total factor maxShrinks initial 0
  cases accepted : last.accepted with
  | true => exact ⟨last.step, run_eq_ok.mpr ⟨last, searched, Or.inl ⟨accepted, rfl⟩⟩⟩
  | false => exact ⟨0, run_eq_ok.mpr ⟨last, searched, Or.inr ⟨accepted, rfl⟩⟩⟩

end Downhill.Feasible
