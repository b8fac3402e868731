import Downhill.Proofs.Search.Shrinking
import Downhill.Proofs.Subspace
import Downhill.Search.Armijo

namespace Downhill.Armijo

variable {α : Type} [Scalar α] {search : Armijo α} {f : Objective α} {x d : Coords α} {start slope : α}
  {found : Outcome α}

theorem attempt_eq_ok {t value : α} {low : Bool} :
    search.attempt f x d start slope t = .ok (value, low) ↔
      ∃ y, candidate x d t = .ok y ∧ f.value y = .ok value ∧
        decide (search.Sufficient start slope t value) = low := by
  simp only [attempt, Outcome.bind_eq_ok, Outcome.pure_eq_ok, Prod.mk.injEq]
  constructor
  · rintro ⟨y, moved, _, atValue, rfl, low⟩
    exact ⟨y, moved, atValue, low⟩
  · rintro ⟨y, moved, atValue, low⟩
    exact ⟨y, moved, value, atValue, rfl, low⟩

theorem run_eq_ok : (search.run f x start d slope).outcome = .ok found ↔
    ∃ last, Backtracking.run (search.attempt f x d start slope) search.factor maxShrinks search.initial =
        .ok last ∧
      ⟨last.step, last.trial, last.shrinks + 1, !last.accepted⟩ = found := by
  unfold run
  dsimp only
  -- The warnings, on an ascent and on an exhausted search, change nothing that is handed back.
  split <;>
  · simp only [Work.outcome_note_bind, Work.outcome_bind_eq_ok, Work.outcome_checked_eq_ok]
    refine exists_congr fun last => and_congr_right fun _ => ?_
    split <;> simp only [Work.outcome_note_bind, Work.outcome_pure_eq_ok]

/-- Searches that find the same values are the same. -/
theorem run_congr {f' : Objective α} {x' d' : Coords α}
    (alike : ∀ t, search.attempt f x d start slope t = search.attempt f' x' d' start slope t) :
    search.run f x start d slope = search.run f' x' start d' slope := by
  unfold run
  rw [funext alike]

/-- A search notes how it ended, and that it went uphill, but no solver. -/
theorem fallback_notMem_run (search : Armijo α) (f : Objective α) (x : Coords α) (start : α) (d : Coords α)
    (slope : α) (system : String) : Event.fallback system ∉ (search.run f x start d slope).events := by
  unfold run
  split <;> simp [Work.mem_events_bind]
  -- What is left is the note on how the search ended.
  all_goals
    intros
    split <;> simp [Work.mem_events_bind]

/-- Along what is no ascent a search does not note one. -/
theorem ascent_notMem_run (search : Armijo α) (f : Objective α) (x : Coords α) (start : α) (d : Coords α)
    (flat : ¬ 0 < slope) (v : α) : Event.ascent v ∉ (search.run f x start d slope).events := by
  unfold run
  split
  · rename_i ascends
    exact absurd ascends flat
  · simp only [Work.mem_events_bind, Work.events_checked, List.not_mem_nil, false_or]
    rintro ⟨last, _, noted⟩
    revert noted
    split <;> simp [Work.mem_events_bind]

/-- A search that is not exhausted has found a value that is low enough. -/
theorem sufficient_of_run (searched : (search.run f x start d slope).outcome = .ok found)
    (satisfied : found.exhausted = false) : search.Sufficient start slope found.step found.value := by
  obtain ⟨last, ended, rfl⟩ := run_eq_ok.mp searched
  obtain ⟨y, _, _, low⟩ := attempt_eq_ok.mp (Backtracking.run_endsAt ended).trial
  exact of_decide_eq_true (low.trans (by simpa using satisfied))

/-- A first step that is low enough is taken. -/
theorem initial_of_run {y : Coords α} {value : α}
    (searched : (search.run f x start d slope).outcome = .ok found)
    (moved : candidate x d search.initial = .ok y) (atValue : f.value y = .ok value)
    (low : search.Sufficient start slope search.initial value) :
    found.step = search.initial ∧ found.exhausted = false := by
  obtain ⟨last, ended, rfl⟩ := run_eq_ok.mp searched
  have ends := Backtracking.run_endsAt ended
  have accepts : Backtracking.Accepts (search.attempt f x d start slope) search.initial :=
    ⟨value, attempt_eq_ok.mpr ⟨y, moved, atValue, decide_eq_true low⟩⟩
  rcases ends.first_accepted with ⟨accepted, _, _, early⟩ | ⟨_, never⟩
  · have zero : last.shrinks = 0 := Nat.eq_zero_of_not_pos fun positive => early 0 positive accepts
    exact ⟨ends.step.trans (congrArg _ zero), congrArg not accepted⟩
  · exact absurd accepts (never 0 (Nat.zero_le _))

/-- On a conforming objective a search comes to an end, whatever the slope. -/
theorem run_ok {n : Nat} (conforming : f.Conforming n) (dimension : x.size = n) (size : d.size = n)
    (search : Armijo α) (start slope : α) : ∃ found, (search.run f x start d slope).outcome = .ok found := by
  have total : ∀ t, ∃ trial, search.attempt f x d start slope t = .ok trial := by
    intro t
    have scaled : (d.scale t).size = n := (Coords.size_scale d t).trans size
    obtain ⟨y, moved, fits⟩ := Coords.add_ok dimension scaled
    obtain ⟨value, atValue⟩ := conforming.value y fits
    exact ⟨_, attempt_eq_ok.mpr ⟨y, moved, atValue, rfl⟩⟩
  obtain ⟨last, searched⟩ := Backtracking.resume_ok total search.factor maxShrinks search.initial 0
  exact ⟨_, run_eq_ok.mpr ⟨last, searched, rfl⟩⟩

theorem runWithin_eq_ok {space : Subspace α} {gradient : Coords α} :
    (search.runWithin f space start gradient d).outcome = .ok found ↔
      ∃ along slope, space.embed d = .ok along ∧ gradient.dot d = .ok slope ∧
        (search.run f space.origin start along slope).outcome = .ok found := by
  simp only [runWithin, Work.outcome_bind_eq_ok, Work.outcome_checked_eq_ok]
  constructor
  · rintro ⟨along, atAlong, slope, atSlope, searched⟩
    exact ⟨along, slope, atAlong, atSlope, searched⟩
  · rintro ⟨along, slope, atAlong, atSlope, searched⟩
    exact ⟨along, atAlong, slope, atSlope, searched⟩

/-- The steps at which a search asks for the objective, in their order. -/
def tried (search : Armijo α) (f : Objective α) (x : Coords α) (start : α) (d : Coords α) (slope : α) :
    List α :=
  Backtracking.tried (search.attempt f x d start slope) search.factor maxShrinks search.initial

/-- The search has asked for the objective at `y` last, and hands back the step there and the value. -/
structure TestedLast (search : Armijo α) (f : Objective α) (x : Coords α) (start : α) (d : Coords α)
    (slope : α) (found : Outcome α) (y : Coords α) : Prop where
  searched : (search.run f x start d slope).outcome = .ok found
  last : (search.tried f x start d slope).getLast? = some found.step
  count : (search.tried f x start d slope).length = found.evaluations
  candidate_eq : candidate x d found.step = .ok y
  value_eq : f.value y = .ok found.value

theorem testedLast_of_moved {y : Coords α} (searched : (search.run f x start d slope).outcome = .ok found)
    (moved : candidate x d found.step = .ok y) : search.TestedLast f x start d slope found y := by
  obtain ⟨last, ended, rfl⟩ := run_eq_ok.mp searched
  obtain ⟨final, count⟩ := Backtracking.resume_tried ended
  obtain ⟨z, tested, atValue, _⟩ := attempt_eq_ok.mp (Backtracking.run_endsAt ended).trial
  obtain rfl := Except.ok.inj (tested.symm.trans moved)
  exact ⟨searched, final, (Nat.zero_add _).symm.trans count, moved, atValue⟩

/-- A search within a subspace, and the point reached from its origin by the step found. -/
structure Within (search : Armijo α) (f : Objective α) (space : Subspace α) (start : α)
    (gradient d along : Coords α) (slope : α) (found : Outcome α) (y : Coords α) : Prop where
  embed_eq : space.embed d = .ok along
  slope_eq : gradient.dot d = .ok slope
  search_eq : (search.run f space.origin start along slope).outcome = .ok found
  point_eq : space.origin.add (along.scale found.step) = .ok y

theorem within_ok {n : Nat} (conforming : f.Conforming n) {space : Subspace α} (wide : space.basis.width = n)
    (dimension : space.origin.size = n) {gradient : Coords α} (left : gradient.size = space.dim)
    (right : d.size = space.dim) (search : Armijo α) (start : α) :
    ∃ along slope found y, search.Within f space start gradient d along slope found y := by
  obtain ⟨along, embedded, size⟩ := space.embed_ok wide right
  obtain ⟨found, searched⟩ := run_ok conforming dimension size search start (gradient.pairing d)
  obtain ⟨y, moved, _⟩ := Coords.add_ok dimension ((Coords.size_scale along _).trans size)
  exact ⟨along, gradient.pairing d, found, y, embedded, if_pos (left.trans right.symm), searched, moved⟩

theorem runWithin_ok {n : Nat} (conforming : f.Conforming n) {space : Subspace α} (wide : space.basis.width = n)
    (dimension : space.origin.size = n) {gradient : Coords α} (left : gradient.size = space.dim)
    (right : d.size = space.dim) (search : Armijo α) (start : α) :
    ∃ found, (search.runWithin f space start gradient d).outcome = .ok found := by
  obtain ⟨along, slope, found, _, within⟩ := within_ok conforming wide dimension left right search start
  exact ⟨found, runWithin_eq_ok.mpr ⟨along, slope, within.embed_eq, within.slope_eq, within.search_eq⟩⟩

theorem Within.testedLast {space : Subspace α} {gradient along y : Coords α}
    (within : search.Within f space start gradient d along slope found y) :
    search.TestedLast f space.origin start along slope found y :=
  testedLast_of_moved within.search_eq within.point_eq

section Exact

variable {search : Armijo ℝ} {f : Objective ℝ} {x d : Coords ℝ} {start slope : ℝ} {found : Outcome ℝ}

/-- Within a subspace the slope is that along the displacement. -/
theorem Within.slope_eq_along {n : Nat} {space : Subspace ℝ} {gradient reduced along y : Coords ℝ}
    (within : search.Within f space start reduced d along slope found y) (wide : space.basis.width = n)
    (applied : space.basis.apply gradient = .ok reduced) : slope = gradient.vec n ⬝ᵥ along.vec n :=
  Subspace.slope_eq_along wide applied within.embed_eq within.slope_eq

theorem step_pos (first : 0 < search.initial) (shrinks : 0 < search.factor)
    (searched : (search.run f x start d slope).outcome = .ok found) : 0 < found.step := by
  obtain ⟨last, ended, rfl⟩ := run_eq_ok.mp searched
  rw [(Backtracking.run_endsAt ended).step]
  exact Backtracking.trialStep_pos first shrinks _

section

variable {n : Nat} {L v : ℝ} {g : Coords ℝ} (smooth : f.Smooth L n) (dimension : x.size = n)
  (here : f.value x = .ok v) (atGradient : f.gradient x = .ok g) (steep : slope = g.vec n ⬝ᵥ d.vec n)

include smooth dimension here atGradient steep

/-- Against a smooth objective a step that is short enough is low enough. -/
theorem sufficient_of_short {t w : ℝ} {y : Coords ℝ} (positive : 0 ≤ t)
    (short : t * (L * (d.vec n ⬝ᵥ d.vec n)) ≤ 2 * (1 - search.fraction) * -slope)
    (moved : candidate x d t = .ok y) (there : f.value y = .ok w) : search.Sufficient v slope t w := by
  have rise := smooth x y v w g dimension ((Coords.size_combine moved).2.trans dimension) here there atGradient
  have way : y.vec n - x.vec n = t • d.vec n := by rw [Coords.vec_add moved, add_sub_cancel_left, Coords.vec_scale]
  rw [way, dotProduct_smul, smul_dotProduct, dotProduct_smul, smul_eq_mul, smul_eq_mul, smul_eq_mul,
    ← steep] at rise
  have gain := mul_le_mul_of_nonneg_left short positive
  change w ≤ v + search.fraction * t * slope
  linarith

/-- Against a smooth objective a search does not end further below its first step than a shrink below the longest
step that is short enough. -/
theorem step_ge (curved : 0 < L * (d.vec n ⬝ᵥ d.vec n)) (first : 0 < search.initial) (shrinks : 0 < search.factor)
    (searched : (search.run f x v d slope).outcome = .ok found) :
    min search.initial (search.factor * (2 * (1 - search.fraction) * -slope / (L * (d.vec n ⬝ᵥ d.vec n)))) ≤
      found.step := by
  obtain ⟨last, ended, rfl⟩ := run_eq_ok.mp searched
  have ends := Backtracking.run_endsAt ended
  change _ ≤ last.step
  rw [ends.step]
  refine Backtracking.trialStep_ge shrinks.le fun j before => (div_le_iff₀ curved).mpr
    (le_of_not_ge fun short => ?_)
  -- A trial that was refused was not short enough.
  obtain ⟨w, refused⟩ := ends.refused j j.zero_le before
  obtain ⟨y, moved, there, high⟩ := attempt_eq_ok.mp refused
  exact of_decide_eq_false high (sufficient_of_short smooth dimension here atGradient steep
    (Backtracking.trialStep_pos first shrinks j).le short moved there)

end

theorem step_eq_pow (searched : (search.run f x start d slope).outcome = .ok found) :
    ∃ j ≤ maxShrinks, found.step = search.initial * search.factor ^ j := by
  obtain ⟨last, ended, rfl⟩ := run_eq_ok.mp searched
  have ends := Backtracking.run_endsAt ended
  exact ⟨last.shrinks, ends.within, ends.step.trans (Backtracking.trialStep_eq _ _ _)⟩

/-- Along a direction that does not ascend a search that is not exhausted does not rise, and along one that
descends it falls. -/
theorem value_le_of_run (first : 0 < search.initial) (shrinks : 0 < search.factor) (positive : 0 < search.fraction)
    (searched : (search.run f x start d slope).outcome = .ok found) (satisfied : found.exhausted = false)
    (descends : slope ≤ 0) : found.value ≤ start ∧ (slope < 0 → found.value < start) := by
  have step := step_pos first shrinks searched
  have share : 0 < search.fraction * found.step := mul_pos positive step
  have low : found.value ≤ start + search.fraction * found.step * slope := sufficient_of_run searched satisfied
  refine ⟨?_, fun strictly => ?_⟩
  · linarith [mul_nonpos_of_nonneg_of_nonpos share.le descends]
  · linarith [mul_neg_of_pos_of_neg share strictly]

end Exact

end Downhill.Armijo
