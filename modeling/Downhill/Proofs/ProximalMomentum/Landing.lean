import Downhill.Proofs.ProximalMomentum.Step
import Downhill.Proofs.Run.Failures

namespace Downhill

variable {α : Type} [Scalar α] {n : Nat} {Holds : Coords α → Prop}

/-- Whatever the scale, the map has a value with as many coordinates, and something holds of it. -/
def Proximal.Lands (prox : Proximal α) (n : Nat) (Holds : Coords α → Prop) : Prop :=
  ∀ u t, u.size = n → ∃ q, prox u t = .ok q ∧ q.size = n ∧ Holds q

theorem Proximal.nonnegative_lands_each {Each : α → Prop} (raised : ∀ v : α, Each (Scalar.atLeast 0 v)) (n : Nat) :
    (nonnegative : Proximal α).Lands n fun q => ∀ v ∈ q.toList, Each v := by
  refine fun u _ size => ⟨u.map (Scalar.atLeast 0), rfl, (Coords.size_map _ u).trans size, fun v member => ?_⟩
  simp only [Coords.toList, Coords.map, Array.toList_map, List.mem_map] at member
  obtain ⟨w, _, rfl⟩ := member
  exact raised w

theorem Proximal.nonnegative_lands (raised : ∀ v : α, 0 ≤ Scalar.atLeast 0 v) (n : Nat) :
    (nonnegative : Proximal α).Lands n fun q => ∀ v ∈ q.toList, 0 ≤ v :=
  nonnegative_lands_each raised n

namespace Majorant

variable {p : Composite α} {v gradient : Coords α} (conforming : p.smooth.Conforming n)
  (lands : p.prox.Lands n Holds) (size : v.size = n) (same : gradient.size = n) (loss : α)

include conforming lands size same

theorem attempt_lands (t : α) :
    ∃ q accepted, attempt p v loss gradient t = .ok (q, accepted) ∧ q.size = n ∧ Holds q := by
  obtain ⟨u, moved, uSize⟩ := Coords.advance_ok size same (-t)
  obtain ⟨q, found, qSize, holds⟩ := lands u t uSize
  obtain ⟨value, atValue⟩ := conforming.value q qSize
  obtain ⟨accepted, made⟩ := attempt_of_candidate size same moved found qSize atValue
  exact ⟨q, accepted, made, qSize, holds⟩

theorem run_lands (tag : String) (initial factor : α) :
    ∃ found, (run p tag v loss gradient initial factor).outcome = .ok found ∧ found.point.size = n ∧
      Holds found.point := by
  have total : ∀ t, ∃ trial, attempt p v loss gradient t = .ok trial := fun t =>
    let ⟨q, accepted, made, _⟩ := attempt_lands conforming lands size same loss t
    ⟨(q, accepted), made⟩
  obtain ⟨last, searched⟩ := Backtracking.resume_ok total factor maxShrinks initial 0
  obtain ⟨q, accepted, made, qSize, holds⟩ := attempt_lands conforming lands size same loss last.step
  obtain ⟨rfl, rfl⟩ := Prod.mk.inj (Except.ok.inj (made.symm.trans (Backtracking.run_endsAt searched).trial))
  exact ⟨_, run_eq_ok.mpr ⟨last, searched, rfl⟩, qSize, holds⟩

end Majorant

namespace ProximalMomentum

variable {config : Config α} {p : Composite α} {s : State α}

/-- Both points have the dimension of the problem, and something holds of the last one. -/
structure Placed (n : Nat) (Holds : Coords α → Prop) (s : State α) : Prop where
  size : s.point.size = n
  same : s.previous.size = n
  holds : Holds s.point

section

variable (conforming : p.smooth.Conforming n) (expandable : p.smooth.Expandable n) (lands : p.prox.Lands n Holds)

include conforming expandable lands

theorem Placed.step_ok (placed : Placed n Holds s) :
    ∃ s', (step config p s).outcome = .ok s' ∧ Placed n Holds s' := by
  obtain ⟨v, atStart, vSize⟩ :=
    extrapolate_ok (s := { s with counter := s.counter + 1 }) placed.size placed.same
  obtain ⟨⟨loss, gradient⟩, expanded, same⟩ := expandable v vSize
  obtain ⟨found, searched, fSize, holds⟩ :=
    Majorant.run_lands conforming lands vSize same loss tag s.scale config.beta
  obtain ⟨s', made⟩ := step_ok_of_search conforming placed.size atStart vSize expanded searched fSize
  obtain ⟨w, loss', gradient', found', moves⟩ := step_cases made
  obtain rfl : v = w := Except.ok.inj (atStart.symm.trans moves.extrapolate_eq)
  obtain ⟨rfl, rfl⟩ := Prod.mk.inj (Except.ok.inj (expanded.symm.trans moves.expand_eq))
  obtain rfl : found = found' := Except.ok.inj (searched.symm.trans moves.search_eq)
  exact ⟨s', made, moves.point_eq ▸ fSize, moves.previous_eq ▸ placed.size, moves.point_eq ▸ holds⟩

theorem unfailing_of_expandable {x : Coords α} (size : x.size = n) (holds : Holds x) :
    method.Unfailing config p x (Placed n Holds) where
  start := ⟨.initial x, rfl, size, size, holds⟩
  step _ _ placed := placed.step_ok conforming expandable lands
  tracked s placed quantity member := by
    obtain rfl := List.mem_singleton.mp member
    exact conforming.value s.point placed.size

end

theorem unfailing (conforming : p.smooth.Conforming n) (expands : p.smooth.Expands n) (lands : p.prox.Lands n Holds)
    {x : Coords α} (size : x.size = n) (holds : Holds x) : method.Unfailing config p x (Placed n Holds) :=
  unfailing_of_expandable conforming (conforming.expandable expands) lands size holds

end ProximalMomentum

end Downhill
