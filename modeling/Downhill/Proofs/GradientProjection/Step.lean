import Downhill.Method.GradientProjection
import Downhill.Proofs.Outcome

namespace Downhill.GradientProjection

variable {α : Type} [Scalar α] {config : Config α} {p : Constrained α} {s s' : State α}

/-- What a step reads of the problem at a state, and the direction of all active rows. -/
structure Reading (config : Config α) (p : Constrained α) (s : State α) where
  values : Coords α
  jacobian : Table α
  active : Table α
  gradient : Coords α
  d : Coords α
  multipliers : Coords α
  values_eq : p.constraints.values s.point = .ok values
  jacobian_eq : p.constraints.jacobian s.point = .ok jacobian
  active_eq : activeRows config values jacobian = .ok active
  gradient_eq : p.objective.gradient s.point = .ok gradient
  direction_eq : (direction gradient active).outcome = .ok (d, multipliers)

namespace Reading

/-- Almost nothing is left of the direction, and no multiplier is negative. -/
def Settled (r : Reading config p s) : Prop :=
  r.d.norm < config.delta ∧ ∀ l ∈ r.multipliers.toList, 0 ≤ l

/-- The rows whose direction is taken: all active ones while their direction is long enough, and else
all but the one with the lowest multiplier. -/
def Keeps (r : Reading config p s) (rows : Table α) : Prop :=
  (¬ r.d.norm < config.delta ∧ rows = r.active) ∨
    (r.d.norm < config.delta ∧ ∃ position l, lowest r.multipliers = some (position, l) ∧
      rows = withoutRow r.active position)

end Reading

/-- A step that moves along the direction of the rows. -/
structure Moves (config : Config α) (p : Constrained α) (s : State α) (r : Reading config p s)
    (rows : Table α) (d multipliers : Coords α) (t : α) (s' : State α) : Prop where
  keeps : r.Keeps rows
  direction_eq : (direction r.gradient rows).outcome = .ok (d, multipliers)
  share_eq : (stepSize config p.constraints s.point d).outcome = .ok t
  point_eq : s.point.advance t d = .ok s'.point
  multipliers_eq : s'.multipliers = multipliers
  active_eq : s'.active = rows.height
  finished_eq : s'.finished = s.finished

theorem moved_eq_ok {active : Nat} {d multipliers : Coords α} :
    (moved config p.constraints s active d multipliers).outcome = .ok s' ↔
      ∃ t, (stepSize config p.constraints s.point d).outcome = .ok t ∧
        s.point.advance t d = .ok s'.point ∧ s'.multipliers = multipliers ∧ s'.active = active ∧
        s'.finished = s.finished := by
  simp only [moved, Work.outcome_bind_eq_ok, Work.outcome_checked_eq_ok]
  constructor
  · rintro ⟨t, atShare, point, atPoint, done⟩
    cases done
    exact ⟨t, atShare, atPoint, rfl, rfl, rfl⟩
  · rintro ⟨t, atShare, atPoint, rfl, rfl, same⟩
    refine ⟨t, atShare, s'.point, atPoint, ?_⟩
    rw [← same]
    rfl

theorem foldl_some {β γ : Type} {f : Option β → γ → Option β} (keeps : ∀ b v, ∃ b', f (some b) v = some b')
    (vs : List γ) (b : β) : ∃ b', vs.foldl f (some b) = some b' := by
  induction vs generalizing b with
  | nil => exact ⟨b, rfl⟩
  | cons v vs ih =>
    obtain ⟨b', next⟩ := keeps b v
    rw [List.foldl_cons, next]
    exact ih b'

theorem toList_of_lowest_eq_none {x : Coords α} (absent : lowest x = none) : x.toList = [] := by
  unfold lowest at absent
  cases entries : x.toList with
  | nil => rfl
  | cons first rest =>
    rw [entries, List.zipIdx_cons, List.foldl_cons] at absent
    refine absurd absent (Option.ne_none_iff_exists'.mpr (foldl_some (fun b v => ?_) _ (0, first)))
    dsimp only
    split <;> exact ⟨_, rfl⟩

theorem foldl_mem {β γ : Type} {f : Option β → γ → Option β} {g : γ → β}
    (chooses : ∀ best v, f best v = best ∨ f best v = some (g v)) {vs : List γ} {best : Option β} {b : β}
    (found : vs.foldl f best = some b) : best = some b ∨ ∃ v ∈ vs, g v = b := by
  induction vs generalizing best with
  | nil => exact Or.inl found
  | cons v vs ih =>
    rw [List.foldl_cons] at found
    obtain here | ⟨w, member, same⟩ := ih found
    · obtain kept | taken := chooses best v
      · exact Or.inl (kept.symm.trans here)
      · exact Or.inr ⟨v, List.mem_cons_self, Option.some.inj (taken.symm.trans here)⟩
    · exact Or.inr ⟨w, List.mem_cons_of_mem v member, same⟩

/-- The lowest entry is an entry, whether or not the entries can be compared. -/
theorem getElem_of_lowest {x : Coords α} {position : Nat} {l : α} (found : lowest x = some (position, l)) :
    ∃ inside : position < x.size, x[position] = l := by
  have place : (none : Option (Nat × α)) = some (position, l) ∨
    ∃ v ∈ x.toList.zipIdx, (v.2, v.1) = (position, l) := by
    refine foldl_mem (g := fun v : α × Nat => (v.2, v.1)) (fun best v => ?_) found
    cases best with
    | none => exact Or.inr rfl
    | some b =>
      dsimp only
      split
      · exact Or.inr rfl
      · exact Or.inl rfl
  obtain ⟨⟨v, i⟩, member, same⟩ := place.resolve_left nofun
  cases same
  obtain ⟨inside, value⟩ := List.getElem?_eq_some_iff.mp (List.mk_mem_zipIdx_iff_getElem?.mp member)
  exact ⟨inside, value⟩

/-- A step that does not fail either finds nothing left to do or moves. -/
theorem step_cases (made : (step config p s).outcome = .ok s') :
    ∃ r : Reading config p s,
      (r.Settled ∧
        s' = { s with multipliers := r.multipliers, active := r.active.height, finished := true }) ∨
      (¬ r.Settled ∧ ∃ rows d multipliers t, Moves config p s r rows d multipliers t s') := by
  simp only [step, Work.outcome_bind_eq_ok, Work.outcome_checked_eq_ok] at made
  obtain ⟨values, atValues, jacobian, atJacobian, active, atActive, gradient, atGradient,
    ⟨d, multipliers⟩, atDirection, rest⟩ := made
  let r : Reading config p s := ⟨values, jacobian, active, gradient, d, multipliers, atValues, atJacobian,
    atActive, atGradient, atDirection⟩
  refine ⟨r, ?_⟩
  dsimp only at rest
  split at rest
  · rename_i short
    split at rest
    · rename_i nonneg
      cases rest
      exact Or.inl ⟨⟨short, by simpa using nonneg⟩, rfl⟩
    · rename_i negative
      have unsettled : ¬ r.Settled := fun settled => negative (by simpa using settled.2)
      split at rest
      · rename_i absent
        have empty : multipliers.toList = [] := toList_of_lowest_eq_none absent
        exact absurd (by simp [empty]) negative
      · rename_i position l found
        simp only [Work.outcome_bind_eq_ok] at rest
        obtain ⟨_, _, ⟨d', multipliers'⟩, released, last⟩ := rest
        obtain ⟨t, atShare, atPoint, same, count, mark⟩ := moved_eq_ok.mp last
        exact Or.inr ⟨unsettled, _, d', multipliers', t, Or.inr ⟨short, position, l, found, rfl⟩,
          released, atShare, atPoint, same, count, mark⟩
  · rename_i long
    obtain ⟨t, atShare, atPoint, same, count, mark⟩ := moved_eq_ok.mp rest
    exact Or.inr ⟨fun settled => long settled.1, active, d, multipliers, t, Or.inl ⟨long, rfl⟩,
      atDirection, atShare, atPoint, same, count, mark⟩

theorem step_of_settled (r : Reading config p s) (settled : r.Settled) : (step config p s).outcome =
    .ok { s with multipliers := r.multipliers, active := r.active.height, finished := true } := by
  simp only [step, Work.outcome_bind_eq_ok, Work.outcome_checked_eq_ok]
  refine ⟨r.values, r.values_eq, r.jacobian, r.jacobian_eq, r.active, r.active_eq, r.gradient,
    r.gradient_eq, (r.d, r.multipliers), r.direction_eq, ?_⟩
  have nonneg : (r.multipliers.toList.all fun l => decide (0 ≤ l)) = true := by simpa using settled.2
  rw [if_pos settled.1, if_pos nonneg]
  rfl

theorem step_of_long {r : Reading config p s} (long : ¬ r.d.norm < config.delta)
    (goes : (moved config p.constraints s r.active.height r.d r.multipliers).outcome = .ok s') :
    (step config p s).outcome = .ok s' := by
  simp only [step, Work.outcome_bind_eq_ok, Work.outcome_checked_eq_ok]
  refine ⟨r.values, r.values_eq, r.jacobian, r.jacobian_eq, r.active, r.active_eq, r.gradient,
    r.gradient_eq, (r.d, r.multipliers), r.direction_eq, ?_⟩
  rw [if_neg long]
  exact goes

end Downhill.GradientProjection
