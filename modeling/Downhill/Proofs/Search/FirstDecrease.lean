import Mathlib
import Downhill.Proofs.Doubles
import Downhill.Proofs.Search.Descent

namespace Downhill.Armijo

open Backtracking (trialStep)

section

variable {α : Type} [Scalar α] {search : Armijo α} {f : Objective α} {x d : Coords α} {start slope : α}

/-- What a search notes and hands back is read off the trial it ended with. -/
theorem run_of_searched {last : Backtracking α α}
    (searched : Backtracking.run (search.attempt f x d start slope) search.factor maxShrinks search.initial =
    .ok last) :
    search.run f x start d slope =
      ⟨(if 0 < slope then [.ascent slope] else []) ++
          [if last.accepted then .searchAccepted last.step (last.shrinks + 1)
            else .searchExhausted last.shrinks last.step],
        .ok ⟨last.step, last.trial, last.shrinks + 1, !last.accepted⟩⟩ := by
  obtain ⟨t, value, shrinks, accepted⟩ := last
  unfold run
  rw [searched]
  cases accepted <;> split <;> rfl

/-- At every step there is a value, and the trial is accepted where that is low enough. -/
theorem attempt_value (search : Armijo α) (start slope : α) (same : x.size = d.size)
    (values : ∀ y, y.size = x.size → ∃ v, f.value y = .ok v) (t : α) :
    ∃ v, (∃ y, x.add (d.scale t) = .ok y ∧ f.value y = .ok v) ∧
      search.attempt f x d start slope t = .ok (v, decide (v ≤ start + search.fraction * t * slope)) := by
  obtain ⟨y, moved, size⟩ := Coords.add_ok rfl ((Coords.size_scale d t).trans same.symm)
  obtain ⟨v, atValue⟩ := values y size
  exact ⟨v, ⟨y, moved, atValue⟩, attempt_eq_ok.mpr ⟨y, moved, atValue, rfl⟩⟩

end

/-- Of the 101 trials allowed a line search hands back the first whose value is low enough, and notes it as
accepted; if there is none, it hands back the last as exhausted, with a warning. A warning about an ascent
stands in front, where the slope is positive. -/
theorem takes_first_sufficient {α : Type} [Scalar α] (search : Armijo α) (f : Objective α) (x : Coords α)
    (start : α) (d : Coords α) (slope : α) (same : x.size = d.size) (values : ∀ y, y.size = x.size →
    ∃ v, f.value y = .ok v) :
    ∃ value : Nat → α,
      (∀ j, ∃ y, x.add (d.scale (trialStep search.initial search.factor j)) = .ok y ∧ f.value y = .ok (value j)) ∧
      ((∃ j, IsLeast {i | i ≤ 100 ∧
            value i ≤ start + search.fraction * trialStep search.initial search.factor i * slope} j ∧
          search.run f x start d slope =
            ⟨(if 0 < slope then [.ascent slope] else []) ++
                [.searchAccepted (trialStep search.initial search.factor j) (j + 1)],
              .ok ⟨trialStep search.initial search.factor j, value j, j + 1, false⟩⟩) ∨
        (∀ j ≤ 100, ¬ value j ≤ start + search.fraction * trialStep search.initial search.factor j * slope) ∧
          search.run f x start d slope =
            ⟨(if 0 < slope then [.ascent slope] else []) ++
                [.searchExhausted 100 (trialStep search.initial search.factor 100)],
              .ok ⟨trialStep search.initial search.factor 100, value 100, 101, true⟩⟩) := by
  choose value here tried using fun j =>
    attempt_value search start slope same values (trialStep search.initial search.factor j)
  refine ⟨value, here, ?_⟩
  rcases Backtracking.run_first (fun j => ⟨_, tried j, decide_eq_true_iff⟩) maxShrinks with
    ⟨j, least, searched⟩ | ⟨never, searched⟩
  · exact Or.inl ⟨j, least, run_of_searched searched⟩
  · exact Or.inr ⟨never, run_of_searched searched⟩

/-- An objective without an ordered value. -/
def unordered : Objective Float :=
  .ofGradient (fun _ => .ok (0.0 / 0.0)) .ok

/-- No machine number that is undefined is low enough: uphill on such values a search notes both warnings. -/
theorem takes_first_sufficient_unordered :
    Armijo.run ⟨0.5, 0.5, 1.0⟩ unordered (.constant 1 1.0) 0.0 (.constant 1 1.0) 1.0 =
      ⟨[.ascent 1.0, .searchExhausted 100 (trialStep 1.0 0.5 100)],
        .ok ⟨trialStep 1.0 0.5 100, 0.0 / 0.0, 101, true⟩⟩ := by
  obtain ⟨value, here, found⟩ := takes_first_sufficient ⟨0.5, 0.5, 1.0⟩ unordered (.constant 1 1.0) 0.0
    (.constant 1 1.0) 1.0 rfl fun _ _ => ⟨_, rfl⟩
  have undefined : ∀ j, value j = 0.0 / 0.0 := by
    intro j
    obtain ⟨_, _, atValue⟩ := here j
    exact (Except.ok.inj atValue).symm
  rcases found with ⟨j, least, _⟩ | ⟨_, exhausted⟩
  · exact absurd (undefined j ▸ least.1.2) (Double.not_undefined_le _)
  · have uphill : (0 : Float) < 1.0 := by decide
    rw [undefined 100, if_pos uphill] at exhausted
    exact exhausted

end Downhill.Armijo
