import Downhill.Work

namespace Downhill

variable {α ε β γ : Type}

@[simp]
theorem Outcome.bind_eq_ok {x : Except ε β} {f : β → Except ε γ} {c : γ} :
    x >>= f = .ok c ↔ ∃ b, x = .ok b ∧ f b = .ok c := by
  cases x with
  | ok b => simp [bind, Except.bind]
  | error why => simp [bind, Except.bind]

@[simp]
theorem Outcome.map_eq_ok {x : Except ε β} {f : β → γ} {c : γ} :
    f <$> x = .ok c ↔ ∃ b, x = .ok b ∧ f b = c := by
  cases x with
  | ok b => simp [Functor.map, Except.map]
  | error why => simp [Functor.map, Except.map]

@[simp]
theorem Outcome.pure_eq_ok {b c : β} : (pure b : Except ε β) = .ok c ↔ b = c :=
  Except.ok.injEq b c ▸ Iff.rfl

theorem Outcome.mapM_cons_eq_ok {f : β → Except ε γ} {x : β} {xs : List β} {ys : List γ} :
    (x :: xs).mapM f = .ok ys ↔ ∃ y, f x = .ok y ∧ ∃ rest, xs.mapM f = .ok rest ∧ y :: rest = ys := by
  rw [List.mapM_cons]
  simp

theorem Outcome.mapM_eq_ok {f : β → Except ε γ} {g : β → γ} {xs : List β} (each : ∀ x ∈ xs, f x = .ok (g x)) :
    xs.mapM f = .ok (xs.map g) := by
  induction xs with
  | nil => rfl
  | cons x xs ih =>
    have rest := ih fun y member => each y (List.mem_cons_of_mem x member)
    exact Outcome.mapM_cons_eq_ok.mpr ⟨g x, each x List.mem_cons_self, xs.map g, rest, rfl⟩

@[simp]
theorem Outcome.relabelled_eq_ok {ζ : Type} {relabel : ε → ζ} {x : Except ε β} {b : β} :
    x.mapError relabel = .ok b ↔ x = .ok b := by
  cases x with
  | ok c =>
    exact ⟨fun same => congrArg Except.ok (Except.ok.inj same),
      fun same => congrArg Except.ok (Except.ok.inj same)⟩
  | error why => exact iff_of_false nofun nofun

theorem Outcome.relabelled_eq_error {ζ : Type} {relabel : ε → ζ} {x : Except ε β} {why : ζ} :
    x.mapError relabel = .error why ↔ ∃ cause, x = .error cause ∧ relabel cause = why := by
  cases x with
  | ok c => exact iff_of_false nofun nofun
  | error cause =>
    constructor
    · intro same
      exact ⟨cause, rfl, Except.error.inj same⟩
    · rintro ⟨_, same, rfl⟩
      cases same
      rfl

namespace Work

@[simp]
theorem outcome_bind_eq_ok {w : Work α β} {f : β → Work α γ} {c : γ} :
    (w >>= f).outcome = .ok c ↔ ∃ b, w.outcome = .ok b ∧ (f b).outcome = .ok c := by
  change (w.andThen f).outcome = .ok c ↔ _
  unfold andThen
  split
  · rename_i b ended
    simp [ended]
  · rename_i stop ended
    simp [ended]

/-- Work that is put together fails where one of its parts does. -/
theorem outcome_bind_eq_error {w : Work α β} {f : β → Work α γ} {stop : Stop α} :
    (w >>= f).outcome = .error stop ↔
      w.outcome = .error stop ∨ ∃ b, w.outcome = .ok b ∧ (f b).outcome = .error stop := by
  change (w.andThen f).outcome = .error stop ↔ _
  unfold andThen
  split
  · rename_i b ended
    simp [ended]
  · rename_i why ended
    simp [ended]

/-- Two continuations of one piece of work are the same where they go on alike from what it ends with. -/
theorem bind_congr {w : Work α β} {f g : β → Work α γ} (same : ∀ b, w.outcome = .ok b → f b = g b) :
    w >>= f = w >>= g := by
  change w.andThen f = w.andThen g
  unfold andThen
  split
  · rename_i b ended
    rw [same b ended]
  · rfl

@[simp]
theorem outcome_fail (why : Failure α) : (fail why : Work α β).outcome = .error (.failure why) :=
  rfl

@[simp]
theorem outcome_pure_eq_ok {b c : β} : (pure b : Work α β).outcome = .ok c ↔ b = c :=
  Except.ok.injEq b c ▸ Iff.rfl

@[simp]
theorem outcome_note_bind (e : Event α) (f : Unit → Work α β) :
    (note e >>= f).outcome = (f ()).outcome :=
  rfl

@[simp]
theorem outcome_checked_eq_ok {x : Checked β} {b : β} :
    (liftM x : Work α β).outcome = .ok b ↔ x = .ok b :=
  Outcome.relabelled_eq_ok

@[simp]
theorem outcome_except_eq_ok {x : Except (Failure α) β} {b : β} :
    (liftM x : Work α β).outcome = .ok b ↔ x = .ok b :=
  Outcome.relabelled_eq_ok

theorem outcome_except_of_error {x : Except (Failure α) β} {why : Failure α} (failed : x = .error why) :
    (liftM x : Work α β).outcome = .error (.failure why) := by
  rw [failed]
  rfl

theorem mem_events_bind {w : Work α β} {f : β → Work α γ} {e : Event α} :
    e ∈ (w >>= f).events ↔ e ∈ w.events ∨ ∃ b, w.outcome = .ok b ∧ e ∈ (f b).events := by
  change e ∈ (w.andThen f).events ↔ _
  unfold andThen
  split
  · rename_i b ended
    simp [ended]
  · rename_i stop ended
    simp [ended]

@[simp]
theorem events_checked (x : Checked β) : (liftM x : Work α β).events = [] :=
  rfl

@[simp]
theorem events_except (x : Except (Failure α) β) : (liftM x : Work α β).events = [] :=
  rfl

@[simp]
theorem events_pure (b : β) : (pure b : Work α β).events = [] :=
  rfl

@[simp]
theorem events_note (e : Event α) : (note e).events = [e] :=
  rfl

end Work

end Downhill
