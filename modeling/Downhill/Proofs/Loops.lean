import Mathlib
import Downhill.Proofs.Exact
import Downhill.Square

namespace Downhill.Square

variable {n : Nat}

/-- What each column hands on to the next holds after all of them, or up to the first that is refused. -/
theorem columns_cases {β : Type} {step : β → Fin n → Option β} (Kept : Nat → β → Prop)
    (keeps : ∀ (i : Fin n) b b', Kept i b → step b i = some b' → Kept (i + 1) b')
    {b : β} (initial : Kept 0 b) :
    (∃ b', (List.finRange n).foldlM step b = some b' ∧ Kept n b') ∨
      ((List.finRange n).foldlM step b = none ∧ ∃ (i : Fin n) (b' : β), Kept i b' ∧ step b' i = none) := by
  have rest : ∀ todo k b, k + todo = n → Kept k b →
      (∃ b', ((List.finRange n).drop k).foldlM step b = some b' ∧ Kept n b') ∨
        (((List.finRange n).drop k).foldlM step b = none ∧
          ∃ (i : Fin n) (b' : β), Kept i b' ∧ step b' i = none) := by
    intro todo
    induction todo with
    | zero =>
      intro k b all kept
      have empty : (List.finRange n).drop k = [] := List.drop_eq_nil_of_le (by simp; omega)
      rw [empty]
      exact Or.inl ⟨b, rfl, (by omega : k = n) ▸ kept⟩
    | succ todo ih =>
      intro k b all kept
      have inside : k < n := by omega
      rw [List.drop_eq_getElem_cons (by simpa using inside), List.foldlM_cons, List.getElem_finRange]
      cases made : step b ⟨k, inside⟩ with
      | none => exact Or.inr ⟨by simp [made], ⟨k, inside⟩, b, kept, made⟩
      | some next => simpa [made] using ih (k + 1) next (by omega) (keeps ⟨k, inside⟩ b next kept made)
  exact rest n 0 b (by omega) initial

theorem columns_invariant {β : Type} {step : β → Fin n → Option β} (Kept : Nat → β → Prop)
    (keeps : ∀ (i : Fin n) b b', Kept i b → step b i = some b' → Kept (i + 1) b')
    {b b' : β} (initial : Kept 0 b) (run : (List.finRange n).foldlM step b = some b') : Kept n b' := by
  rcases columns_cases Kept keeps initial with ⟨last, found, kept⟩ | ⟨refused, _⟩
  · exact Option.some.inj (found.symm.trans run) ▸ kept
  · cases refused.symm.trans run

section Settled

variable {α : Type} [Zero α]

theorem settle_concat (order : List (Fin n)) (i : Fin n) (rule : Vector α n → Fin n → α) :
    settle (order ++ [i]) rule =
      (settle order rule).set i.val (rule (settle order rule) i) i.isLt := by
  simp [settle, List.foldl_append]

/-- Every settled value obeys its rule on the finished sequence, if no rule reads a value that is
settled after its own. -/
theorem settle_obeys (earlier : Fin n → Fin n → Prop) (asymm : ∀ i j, earlier i j → ¬ earlier j i)
    {rule : Vector α n → Fin n → α}
    (reads : ∀ i x y, (∀ j, earlier j i → x.get j = y.get j) → rule x i = rule y i)
    {order : List (Fin n)} (ordered : order.Pairwise earlier) :
    ∀ i ∈ order, (settle order rule).get i = rule (settle order rule) i := by
  induction order using List.reverseRecOn with
  | nil => simp
  | append_singleton front last ih =>
    obtain ⟨inFront, _, before⟩ := List.pairwise_append.mp ordered
    rw [settle_concat]
    have untouched : ∀ j, j ≠ last →
        ((settle front rule).set last.val (rule (settle front rule) last) last.isLt).get j =
          (settle front rule).get j := by
      intro j other
      simp [Fin.val_inj, Ne.symm other]
    intro i member
    rcases List.mem_append.mp member with earlierOne | here
    · have behind : earlier i last := before i earlierOne last (List.mem_singleton_self last)
      have differ : ∀ j, earlier j i → j ≠ last := fun j first same => asymm i last behind (same ▸ first)
      have apart : i ≠ last := fun same => asymm i last behind (same ▸ same ▸ behind)
      rw [untouched i apart, ih inFront i earlierOne]
      exact reads i _ _ fun j first => (untouched j (differ j first)).symm
    · obtain rfl := List.mem_singleton.mp here
      have value : ((settle front rule).set i.val (rule (settle front rule) i) i.isLt).get i =
          rule (settle front rule) i := by simp
      rw [value]
      exact reads i _ _ fun j first =>
        (untouched j fun same => asymm j i first (same ▸ same ▸ first)).symm

end Settled

theorem foldl_sub {β : Type} (f : β → ℝ) (terms : List β) (v : ℝ) :
    terms.foldl (fun rest j => rest - f j) v = v - (terms.map f).sum := by
  induction terms generalizing v with
  | nil => simp
  | cons first rest ih =>
    rw [List.foldl_cons, ih, List.map_cons, List.sum_cons, sub_sub]

theorem sum_filter_finRange (p : Fin n → Prop) [DecidablePred p] (f : Fin n → ℝ) :
    (((List.finRange n).filter p).map f).sum = ∑ j, if p j then f j else 0 := by
  rw [← Finset.sum_filter, ← List.sum_toFinset _ ((List.nodup_finRange n).filter _)]
  congr 1
  ext j
  simp

theorem sum_before (i : Fin n) (f : Fin n → ℝ) :
    ((before i).map f).sum = ∑ j, if j < i then f j else 0 :=
  sum_filter_finRange _ f

theorem sum_after (i : Fin n) (f : Fin n → ℝ) :
    ((after i).map f).sum = ∑ j, if i < j then f j else 0 :=
  sum_filter_finRange _ f

section Substitution

variable {M : Matrix (Fin n) (Fin n) ℝ} {b : Fin n → ℝ} {rule : Vector ℝ n → Fin n → ℝ}

/-- Where every value takes what the earlier ones contribute off the right side and is divided by the diagonal,
the values solve the system, if no row reads later ones. -/
theorem mulVec_settle (earlier : Fin n → Fin n → Prop) [DecidableRel earlier]
    (asymm : ∀ i j, earlier i j → ¬ earlier j i) (total : ∀ i j, i ≠ j → earlier i j ∨ earlier j i)
    (triangle : ∀ i j, earlier i j → M i j = 0) (pivots : ∀ i, M i i ≠ 0)
    (rules : ∀ x i, rule x i = (b i - ∑ j, if earlier j i then M i j * x.get j else 0) / M i i)
    {order : List (Fin n)} (ordered : order.Pairwise earlier) (all : ∀ i, i ∈ order) :
    M.mulVec (settle order rule).get = b := by
  have reads : ∀ i x y, (∀ j, earlier j i → x.get j = y.get j) → rule x i = rule y i := by
    intro i x y same
    rw [rules, rules]
    refine congrArg (fun sum => (b i - sum) / M i i) (Finset.sum_congr rfl fun j _ => ?_)
    split
    · rename_i front
      rw [same j front]
    · rfl
  funext i
  let x := (settle order rule).get
  have settled : x i = (b i - ∑ j, if earlier j i then M i j * x j else 0) / M i i :=
    (settle_obeys earlier asymm reads ordered i (all i)).trans (rules _ i)
  have parts : M.mulVec x i = (∑ j, if earlier j i then M i j * x j else 0) + M i i * x i := by
    have diagonal : M i i * x i = ∑ j, if i = j then M i j * x j else 0 := by simp
    rw [Matrix.mulVec, dotProduct, diagonal, ← Finset.sum_add_distrib]
    refine Finset.sum_congr rfl fun j _ => ?_
    by_cases here : i = j
    · subst here
      have apart : ¬ earlier i i := fun self => asymm i i self self
      simp [apart]
    · rcases total i j here with behind | front
      · simp [here, asymm i j behind, triangle i j behind]
      · simp [here, front]
  change M.mulVec x i = b i
  rw [parts, settled, mul_div_cancel₀ _ (pivots i)]
  exact add_sub_cancel _ _

/-- From the first position to the last a lower triangle is solved. -/
theorem mulVec_settle_forward (triangle : ∀ i j, i < j → M i j = 0) (pivots : ∀ i, M i i ≠ 0)
    (rules : ∀ x i, rule x i = (b i - ∑ j, if j < i then M i j * x.get j else 0) / M i i) :
    M.mulVec (settle (List.finRange n) rule).get = b :=
  mulVec_settle (· < ·) (fun _ _ less => less.not_gt) (fun _ _ => lt_or_gt_of_ne) triangle pivots rules
    (List.pairwise_lt_finRange n) List.mem_finRange

/-- From the last position to the first an upper triangle is solved. -/
theorem mulVec_settle_backward (triangle : ∀ i j, j < i → M i j = 0) (pivots : ∀ i, M i i ≠ 0)
    (rules : ∀ x i, rule x i = (b i - ∑ j, if i < j then M i j * x.get j else 0) / M i i) :
    M.mulVec (settle (List.finRange n).reverse rule).get = b :=
  mulVec_settle (· > ·) (fun _ _ less => less.not_gt) (fun _ _ => lt_or_gt_of_ne ∘ Ne.symm) triangle pivots rules
    (List.pairwise_reverse.mpr (List.pairwise_lt_finRange n)) fun i => List.mem_reverse.mpr (List.mem_finRange i)

end Substitution

end Downhill.Square
