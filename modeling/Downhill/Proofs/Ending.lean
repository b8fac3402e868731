import Downhill.Proofs.Outcome

namespace Downhill.Work

variable {α β γ : Type} {Good : β → Prop} {Fails : Failure α → Prop} {w : Work α β}

/-- There is a result of which something holds, or a failure for one of some reasons. No operands are met that do
not fit together. -/
def Ends (w : Work α β) (Good : β → Prop) (Fails : Failure α → Prop) : Prop :=
  (∃ b, w.outcome = .ok b ∧ Good b) ∨ ∃ why, w.outcome = .error (.failure why) ∧ Fails why

theorem Ends.bind {f : β → Work α γ} {After : γ → Prop} (first : w.Ends Good Fails)
    (second : ∀ b, Good b → (f b).Ends After Fails) : (w >>= f).Ends After Fails := by
  obtain ⟨b, ended, good⟩ | ⟨why, failed, reason⟩ := first
  · obtain ⟨c, done, after⟩ | ⟨why, failed, reason⟩ := second b good
    · exact Or.inl ⟨c, outcome_bind_eq_ok.mpr ⟨b, ended, done⟩, after⟩
    · exact Or.inr ⟨why, outcome_bind_eq_error.mpr (Or.inr ⟨b, ended, failed⟩), reason⟩
  · exact Or.inr ⟨why, outcome_bind_eq_error.mpr (Or.inl failed), reason⟩

theorem Ends.weaken {Weaker : β → Prop} (ends : w.Ends Good Fails) (weaker : ∀ b, Good b → Weaker b) :
    w.Ends Weaker Fails :=
  ends.imp_left fun ⟨b, ended, good⟩ => ⟨b, ended, weaker b good⟩

theorem ends_ok (ended : ∃ b, w.outcome = .ok b ∧ Good b) : w.Ends Good Fails :=
  Or.inl ended

/-- Work that has a result, whatever it is. -/
theorem ends_some (ended : ∃ b, w.outcome = .ok b) : w.Ends (fun _ => True) Fails :=
  let ⟨b, made⟩ := ended
  Or.inl ⟨b, made, trivial⟩

theorem ends_pure {b : β} (good : Good b) : (pure b : Work α β).Ends Good Fails :=
  Or.inl ⟨b, rfl, good⟩

theorem ends_note (e : Event α) : (note e).Ends (fun _ => True) Fails :=
  Or.inl ⟨(), rfl, trivial⟩

theorem ends_checked {x : Checked β} (found : ∃ b, x = .ok b ∧ Good b) : (liftM x : Work α β).Ends Good Fails :=
  let ⟨b, made, good⟩ := found
  Or.inl ⟨b, outcome_checked_eq_ok.mpr made, good⟩

theorem ends_found {x : Checked β} (found : ∃ b, x = .ok b) : (liftM x : Work α β).Ends (fun _ => True) Fails :=
  let ⟨b, made⟩ := found
  ends_checked ⟨b, made, trivial⟩

theorem ends_except {x : Except (Failure α) β} (found : ∃ b, x = .ok b ∧ Good b) :
    (liftM x : Work α β).Ends Good Fails :=
  let ⟨b, made, good⟩ := found
  Or.inl ⟨b, outcome_except_eq_ok.mpr made, good⟩

theorem ends_error {x : Except (Failure α) β} {why : Failure α} (failed : x = .error why) (reason : Fails why) :
    (liftM x : Work α β).Ends Good Fails :=
  Or.inr ⟨why, outcome_except_of_error failed, reason⟩

theorem Ends.of_ok {b : β} (ends : w.Ends Good Fails) (ended : w.outcome = .ok b) : Good b := by
  obtain ⟨c, made, good⟩ | ⟨why, failed, _⟩ := ends
  · exact Except.ok.inj (made.symm.trans ended) ▸ good
  · cases failed.symm.trans ended

theorem Ends.of_error {stop : Stop α} (ends : w.Ends Good Fails) (ended : w.outcome = .error stop) :
    ∃ why, stop = .failure why ∧ Fails why := by
  obtain ⟨c, made, _⟩ | ⟨why, failed, reason⟩ := ends
  · cases made.symm.trans ended
  · exact ⟨why, Except.error.inj (ended.symm.trans failed), reason⟩

/-- Where there is no reason to fail there is a result. -/
theorem Ends.ok (ends : w.Ends Good Fails) (never : ∀ why, ¬Fails why) : ∃ b, w.outcome = .ok b ∧ Good b :=
  ends.resolve_right fun ⟨why, _, reason⟩ => never why reason

end Downhill.Work
