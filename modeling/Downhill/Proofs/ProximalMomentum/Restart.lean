import Downhill.Proofs.ProximalMomentum.Scale

namespace Downhill.ProximalMomentum

section

variable {α : Type} [Scalar α]

/-- A step has noted that it set the counter back. -/
def Restarts (config : Config α) (p : Composite α) (s : State α) : Prop :=
  ∃ k, Event.restart k ∈ (step config p s).events

/-- The last of so many steps has set the counter back. -/
def RestartedAt (config : Config α) (p : Composite α) (x : Coords α) : Nat → Prop
  | 0 => False
  | i + 1 => ∃ s, method.after config p x () i = .ok (s, ()) ∧ Restarts config p s

variable {config : Config α} {p : Composite α} {x : Coords α} {s s' : State α}

theorem not_restart_run (tag : String) (v : Coords α) (loss : α) (gradient : Coords α) (initial factor : α)
    (k : Nat) :
    Event.restart k ∉ (Majorant.run p tag v loss gradient initial factor).events := by
  simp only [Majorant.run, Work.mem_events_bind, Work.events_checked, List.not_mem_nil, false_or]
  rintro ⟨last, _, noted⟩
  cases accepted : last.accepted <;> simp [accepted, Work.mem_events_bind] at noted

/-- The counter goes back where the objective has gone up, with restarts on, and goes on elsewhere. -/
theorem counter_cases (made : (step config p s).outcome = .ok s') :
    (¬ Restarts config p s ∧ s'.counter = s.counter + 1 ∧
        (config.restart = true → wentUp p.smooth s'.point s.point = .ok false)) ∨
      (Restarts config p s ∧ s'.counter = 0 ∧ config.restart = true ∧
        wentUp p.smooth s'.point s.point = .ok true) := by
  simp only [step, Work.outcome_bind_eq_ok, Work.outcome_checked_eq_ok, Prod.exists] at made
  obtain ⟨v, atStart, loss, gradient, atExpansion, found, searched, change, apart, rest⟩ := made
  -- Up to its search a step notes no restart.
  simp only [Restarts, step, Work.mem_events_bind, Work.events_checked, List.not_mem_nil, false_or, not_restart_run,
    Work.outcome_checked_eq_ok, atStart, atExpansion, searched, apart, Except.ok.injEq, exists_eq_left']
  split at rest
  · rename_i restart
    simp only [Work.outcome_bind_eq_ok, Work.outcome_checked_eq_ok] at rest
    obtain ⟨up, compared, rest⟩ := rest
    cases up with
    | true =>
      simp only [if_true, Work.outcome_bind_eq_ok] at rest
      obtain ⟨_, _, done⟩ := rest
      cases done
      exact Or.inr ⟨⟨s.counter + 1, by simp [restart, Work.mem_events_bind, compared]⟩, rfl, restart, compared⟩
    | false =>
      cases rest
      exact Or.inl ⟨by simp [restart, Work.mem_events_bind, compared], rfl, fun _ => compared⟩
  · rename_i off
    cases rest
    exact Or.inl ⟨by simp [off], rfl, fun restart => absurd restart off⟩

end

variable {config : Config ℝ} {p : Composite ℝ} {x v : Coords ℝ} {s s' : State ℝ} {i n : Nat}

/-- The point is past the last one, by some share of the last displacement that is less than the whole. -/
def Forward (n : Nat) (s : State ℝ) (v : Coords ℝ) : Prop :=
  ∃ θ : ℝ, 0 ≤ θ ∧ θ < 1 ∧ v.vec n = s.point.vec n + θ • (s.point.vec n - s.previous.vec n)

theorem forward_of_counter (made : extrapolate { s with counter := s.counter + 1 } = .ok v)
    (later : 1 ≤ s.counter) :
    Forward n s v := by
  have counted : (1 : ℝ) ≤ s.counter := mod_cast later
  refine ⟨((s.counter : ℝ) - 1) / (s.counter + 2), div_nonneg (by linarith) (by linarith), ?_, vec_start made n⟩
  rw [div_lt_one (by linarith)]
  linarith

/-- With the counter at zero the extrapolated point is halfway back. -/
theorem halfway_of_counter (made : extrapolate { s with counter := s.counter + 1 } = .ok v) (zero : s.counter = 0)
    (n : Nat) : v.vec n = s.point.vec n + (1 / 2 : ℝ) • (s.previous.vec n - s.point.vec n) := by
  rw [vec_start made, zero, ← neg_sub (s.previous.vec n) (s.point.vec n), smul_neg, ← neg_smul]
  norm_num

/-- Halfway back is no share of the displacement, unless the two points are one. -/
theorem not_forward_of_halfway (size : s.point.size = n) (same : s.previous.size = n)
    (differ : s.point ≠ s.previous)
    (halfway : v.vec n = s.point.vec n + (1 / 2 : ℝ) • (s.previous.vec n - s.point.vec n)) : ¬ Forward n s v := by
  rintro ⟨θ, nonneg, _, shared⟩
  refine differ (Coords.eq_of_vec size same (sub_eq_zero.mp ?_))
  have zero : (θ + 1 / 2) • (s.point.vec n - s.previous.vec n) = 0 := by
    rw [add_smul, add_left_cancel (shared.symm.trans halfway), ← smul_add, sub_add_sub_cancel, sub_self, smul_zero]
  exact (smul_eq_zero.mp zero).resolve_left (by linarith)

theorem forward_point (n : Nat) (s : State ℝ) : Forward n s s.point :=
  ⟨0, le_rfl, one_pos, by rw [zero_smul, add_zero]⟩

theorem ne_of_wentUp (up : wentUp p.smooth s.point s.previous = .ok true) : s.point ≠ s.previous := by
  intro same
  rw [same] at up
  simp only [wentUp, Outcome.bind_eq_ok, Outcome.pure_eq_ok, decide_eq_true_eq] at up
  obtain ⟨high, atPoint, low, atPrevious, less⟩ := up
  exact less.ne (Except.ok.inj (atPrevious.symm.trans atPoint))

theorem restartedAt_succ (reached : method.after config p x () i = .ok (s, ())) :
    RestartedAt config p x (i + 1) ↔ Restarts config p s := by
  constructor
  · rintro ⟨before, same, noted⟩
    cases reached.symm.trans same
    exact noted
  · exact fun noted => ⟨s, reached, noted⟩

theorem size_previous_after (reached : method.after config p x () i = .ok (s, ())) : s.previous.size = x.size := by
  cases i with
  | zero =>
    cases reached
    rfl
  | succ i =>
    obtain ⟨before, _, earlier, made, _⟩ := Method.after_succ_eq_ok.mp reached
    obtain ⟨_, _, _, _, moves⟩ := step_cases made
    exact moves.previous_eq ▸ size_after earlier

/-- Without a restart in the last step there was no step yet, or the counter has been raised. -/
theorem after_cases (reached : method.after config p x () i = .ok (s, ())) :
    (¬ RestartedAt config p x i ∧ (s.point = s.previous ∨ 1 ≤ s.counter)) ∨
      (RestartedAt config p x i ∧ s.counter = 0 ∧ config.restart = true ∧
        wentUp p.smooth s.point s.previous = .ok true) := by
  cases i with
  | zero =>
    cases reached
    exact Or.inl ⟨id, Or.inl rfl⟩
  | succ i =>
    obtain ⟨before, _, earlier, made, _⟩ := Method.after_succ_eq_ok.mp reached
    obtain ⟨_, _, _, _, moves⟩ := step_cases made
    rw [restartedAt_succ earlier, moves.previous_eq]
    refine (counter_cases made).imp (fun ⟨silent, counter, _⟩ => ⟨silent, Or.inr ?_⟩) id
    exact counter ▸ Nat.le_add_left 1 _

/-- An iteration searches from some share of the last displacement past the last point exactly where the step
before has not restarted. After a restart the search starts halfway back between the two last points, which
are apart, and the scale is carried on all the same. -/
theorem restart_goes_back (config : Config ℝ) (p : Composite ℝ) (x : Coords ℝ) {i : Nat} {s : State ℝ}
    (reached : method.after config p x () i = .ok (s, ())) :
    ∃ v, extrapolate { s with counter := s.counter + 1 } = .ok v ∧
      (∀ s', (step config p s).outcome = .ok s' → ∃ loss gradient found,
        Moves config p s v loss gradient found s') ∧
      (¬ RestartedAt config p x i ↔ s.point = s.previous ∨ Forward x.size s v) ∧
      (RestartedAt config p x i → config.restart = true ∧ wentUp p.smooth s.point s.previous = .ok true ∧
        v.vec x.size = s.point.vec x.size + (1 / 2 : ℝ) • (s.previous.vec x.size - s.point.vec x.size) ∧
        v ≠ s.point) := by
  have size : s.point.size = x.size := size_after reached
  have same : s.previous.size = x.size := size_previous_after reached
  obtain ⟨v, atStart, _⟩ := extrapolate_ok (s := { s with counter := s.counter + 1 }) size same
  refine ⟨v, atStart, fun s' made => ?_, ?_⟩
  · obtain ⟨w, loss, gradient, found, moves⟩ := step_cases made
    obtain rfl := Except.ok.inj (atStart.symm.trans moves.extrapolate_eq)
    exact ⟨loss, gradient, found, moves⟩
  obtain ⟨silent, here | counted⟩ | ⟨noted, counter, restart, up⟩ := after_cases reached
  · exact ⟨iff_of_true silent (Or.inl here), fun noted => absurd noted silent⟩
  · exact ⟨iff_of_true silent (Or.inr (forward_of_counter atStart counted)), fun noted => absurd noted silent⟩
  · have differ := ne_of_wentUp up
    have halfway := halfway_of_counter atStart counter x.size
    have behind := not_forward_of_halfway size same differ halfway
    refine ⟨iff_of_false (not_not_intro noted) (not_or.mpr ⟨differ, behind⟩), fun _ => ⟨restart, up, halfway, ?_⟩⟩
    rintro rfl
    exact behind (forward_point _ s)

/-- Restarts are on. -/
noncomputable def restarting : Config ℝ :=
  ⟨true, 0.5, 0.1⟩

theorem restarting_valid : schema.validate restarting = .ok () :=
  validate_eq_ok.mpr (by norm_num [restarting])

/-- A quarter of the squared distance from ten, with the absolute value. -/
noncomputable def pulled : Composite ℝ :=
  ⟨.quadratic ((Table.identity 1).scale 0.5) (.constant 1 10.0), .softThreshold 1⟩

theorem pulled_conforming : pulled.smooth.Conforming 1 :=
  Objective.quadratic_conforming (Table.scale_identity 1 0.5).1 (Table.scale_identity 1 0.5).2.1
  (Coords.size_constant _ _)

theorem pulled_smooth : pulled.smooth.Smooth (1 / 2) 1 := by
  obtain ⟨high, wide, form⟩ := Table.scale_identity 1 0.5
  refine Objective.quadratic_smooth high wide (by simp [form]) fun d => ?_
  rw [form, Matrix.smul_mulVec, Matrix.one_mulVec, dotProduct_smul, smul_eq_mul]
  norm_num

theorem pulled_value {a v : ℝ} (made : pulled.smooth.value (.constant 1 a) = .ok v) : v = (a - 10) ^ 2 / 4 := by
  obtain ⟨high, wide, form⟩ := Table.scale_identity 1 0.5
  rw [Objective.quadratic_values high wide (Coords.size_constant 1 a) made, form]
  norm_num [Matrix.smul_mulVec, dotProduct]
  ring

/-- The first trial of a search at scale one is accepted. -/
theorem pulled_search {a : ℝ} (far : -8 ≤ a) : ∃ loss gradient,
    pulled.smooth.expand (.constant 1 a) = .ok (loss, gradient) ∧
      (Majorant.run pulled tag (.constant 1 a) loss gradient 1 0.5).outcome = .ok ⟨.constant 1 (a / 2 + 4), 1⟩ := by
  obtain ⟨high, wide, form⟩ := Table.scale_identity 1 0.5
  obtain ⟨loss, gradient, expanded, starts⟩ := Majorant.expand_ok (h := .absolute 1 1) pulled_conforming
    (Objective.quadratic_expands _ _ 1) (ProximalTerm.softThreshold_isExact zero_le_one 1)
    (Coords.size_constant 1 a)
  refine ⟨loss, gradient, expanded, ?_⟩
  have half : (0 : ℝ) < 0.5 := by norm_num
  obtain ⟨found, searched⟩ := starts.run_ok one_pos half tag
  obtain ⟨_, most, _, trial, _⟩ := starts.run_cases one_pos half (by norm_num) searched
  have least := starts.scale_ge one_pos half pulled_smooth (by norm_num) searched
  have whole : found.scale = 1 := le_antisymm most (by norm_num at least; exact least)
  obtain ⟨last, ended, rfl⟩ := Majorant.run_eq_ok.mp searched
  have there := Majorant.candidate_of_attempt (Backtracking.run_endsAt ended).trial
  change last.step = 1 at whole
  rw [whole] at there
  obtain ⟨u, moved, shrunk⟩ := Outcome.bind_eq_ok.mp there
  have slope := Objective.quadratic_gradients high wide starts.slope
  have point : last.trial = .constant 1 (a / 2 + 4) := by
    have uSize : u.size = 1 := (Coords.size_combine moved).2.trans (Coords.size_constant 1 a)
    refine Coords.eq_of_vec trial.size (Coords.size_constant 1 _) (funext fun j => ?_)
    have landed : u.vec 1 j = a / 2 + 5 := by
      rw [Coords.vec_advance moved, slope, form]
      norm_num [Matrix.smul_mulVec]
      ring
    have shrunk : last.trial.vec 1 j = ProximalTerm.shrunk (1 * 1) (u.vec 1 j) :=
      Except.ok.inj shrunk ▸ Coords.vec_map_of_size _ uSize j
    rw [shrunk, landed, ProximalTerm.shrunk_of_le (by norm_num) (by linarith), Coords.vec_constant]
    ring
  rw [searched, point, whole]

theorem pulled_step {a : ℝ} (sized : Sized 1 s) (scale : s.scale = 1)
    (atStart : extrapolate { s with counter := s.counter + 1 } = .ok (.constant 1 a)) (far : -8 ≤ a) :
    ∃ s', (step restarting pulled s).outcome = .ok s' ∧ s'.point = .constant 1 (a / 2 + 4) ∧ s'.scale = 1 := by
  obtain ⟨s', made⟩ := step_ok (h := .absolute 1 1) pulled_conforming (Objective.quadratic_expands _ _ 1)
    (ProximalTerm.softThreshold_isExact zero_le_one 1) restarting_valid sized
  obtain ⟨v, loss, gradient, found, moves⟩ := step_cases made
  obtain rfl := Except.ok.inj (atStart.symm.trans moves.extrapolate_eq)
  obtain ⟨loss', gradient', expanded, searched⟩ := pulled_search far
  obtain ⟨rfl, rfl⟩ := Prod.mk.inj (Except.ok.inj (expanded.symm.trans moves.expand_eq))
  have ended := moves.search_eq
  rw [scale] at ended
  obtain rfl := Except.ok.inj (searched.symm.trans ended)
  exact ⟨s', made, moves.point_eq, moves.scale_eq⟩

/-- The first step goes from ten to nine, where the objective alone is greater. -/
theorem pulled_first : ∃ s, method.after restarting pulled (.constant 1 10) () 1 = .ok (s, ()) ∧
    RestartedAt restarting pulled (.constant 1 10) 1 ∧ s.point = .constant 1 9 ∧
    s.previous = .constant 1 10 ∧ s.scale = 1 ∧ s.counter = 0 ∧ s.finished = false := by
  have sized : Sized 1 (.initial (.constant 1 10)) := sized_start (Coords.size_constant 1 10)
  obtain ⟨v, atStart, _⟩ :=
    extrapolate_ok (s := { State.initial (.constant 1 10) with counter := 1 }) sized.size sized.same
  obtain rfl : v = .constant 1 10 := extrapolate_of_still atStart rfl
  obtain ⟨s, made, point, scale⟩ := pulled_step sized rfl atStart (by norm_num)
  have begun : method.after restarting pulled (.constant 1 10) () 0 = .ok (.initial (.constant 1 10), ()) :=
    Method.after_zero_eq_ok.mpr ⟨rfl, rfl⟩
  have reached : method.after restarting pulled (.constant 1 10) () 1 = .ok (s, ()) :=
    Method.after_succ_eq_ok.mpr ⟨_, (), begun, made, rfl⟩
  obtain ⟨w, loss, gradient, found, moves⟩ := step_cases made
  norm_num at point
  have up : ¬ wentUp pulled.smooth s.point (.constant 1 10) = .ok false := by
    intro still
    simp only [wentUp, Outcome.bind_eq_ok, Outcome.pure_eq_ok, decide_eq_false_iff_not, not_lt, point] at still
    obtain ⟨high, there, low, here, less⟩ := still
    rw [pulled_value there, pulled_value here] at less
    norm_num at less
  obtain ⟨_, _, still⟩ | ⟨noted, counter, _⟩ := counter_cases made
  · exact absurd (still rfl) up
  refine ⟨s, reached, (restartedAt_succ begun).mpr noted, point, moves.previous_eq, scale, counter, ?_⟩
  obtain ⟨change, apart, marked⟩ := moves.finished_eq
  obtain rfl := Except.ok.inj (atStart.symm.trans moves.extrapolate_eq)
  rw [← moves.point_eq, point] at apart
  rw [marked, ← moves.scale_eq, scale, Coords.norm_of_sub (Coords.size_constant 1 9) apart, sqDist_eq_sum]
  norm_num [restarting]

/-- After the restart that follows the first step the search goes back half of that step. -/
theorem restart_goes_back_pulled : ∃ (s : State ℝ) (v : Coords ℝ),
    method.after restarting pulled (.constant 1 10) () 1 = .ok (s, ()) ∧
      RestartedAt restarting pulled (.constant 1 10) 1 ∧
      extrapolate { s with counter := s.counter + 1 } = .ok v ∧
      v.vec 1 = s.point.vec 1 + (1 / 2 : ℝ) • (s.previous.vec 1 - s.point.vec 1) ∧ v ≠ s.point := by
  obtain ⟨s, reached, noted, _⟩ := pulled_first
  obtain ⟨v, atStart, _, _, after⟩ := restart_goes_back restarting pulled (.constant 1 10) reached
  obtain ⟨_, _, halfway, apart⟩ := after noted
  exact ⟨s, v, reached, noted, atStart, halfway, apart⟩

/-- The search after that restart starts from nine and a half and leads to eight and three quarters, where one from
nine leads to eight and a half. -/
theorem restart_starts_halfway : ∃ (s s' : State ℝ) (v : Coords ℝ),
    method.after restarting pulled (.constant 1 10) () 1 = .ok (s, ()) ∧ s.finished = false ∧
      RestartedAt restarting pulled (.constant 1 10) 1 ∧
      extrapolate { s with counter := s.counter + 1 } = .ok v ∧ v ≠ s.point ∧
      ¬ (s.point = s.previous ∨ Forward 1 s v) ∧
      method.after restarting pulled (.constant 1 10) () 2 = .ok (s', ()) ∧ s'.point = .constant 1 8.75 ∧
      ∃ loss gradient, pulled.smooth.expand s.point = .ok (loss, gradient) ∧
        (Majorant.run pulled tag s.point loss gradient s.scale restarting.beta).outcome =
        .ok ⟨.constant 1 8.5, 1⟩ := by
  obtain ⟨s, reached, noted, point, previous, scale, counter, unfinished⟩ := pulled_first
  have size : s.point.size = 1 := point ▸ Coords.size_constant 1 9
  have same : s.previous.size = 1 := previous ▸ Coords.size_constant 1 10
  obtain ⟨v, atStart, vSize⟩ := extrapolate_ok (s := { s with counter := s.counter + 1 }) size same
  have halfway := halfway_of_counter atStart counter 1
  have differ : s.point ≠ s.previous := by
    rw [point, previous]
    intro equal
    have entries := congrArg (fun y => Coords.vec y 1 0) equal
    norm_num at entries
  have behind := not_forward_of_halfway size same differ halfway
  have between : v = .constant 1 9.5 := by
    refine Coords.eq_of_vec vSize (Coords.size_constant 1 _) (funext fun j => ?_)
    rw [halfway, point, previous]
    norm_num
  have sized : Sized 1 s := ⟨size, same, scale ▸ one_pos, scale.le⟩
  obtain ⟨s', made, next, _⟩ := pulled_step sized scale (between ▸ atStart) (by norm_num)
  have plain := pulled_search (a := 9) (by norm_num)
  rw [show (9 / 2 + 4 : ℝ) = 8.5 by norm_num] at plain
  refine ⟨s, s', v, reached, unfinished, noted, atStart, ?_, not_or.mpr ⟨differ, behind⟩,
    Method.after_succ_eq_ok.mpr ⟨s, (), reached, made, rfl⟩, ?_, ?_⟩
  · rintro rfl
    exact behind (forward_point 1 s)
  · rw [next]
    norm_num
  · rw [point, scale]
    exact plain

end Downhill.ProximalMomentum
