import Mathlib
import Downhill.Method.InteriorPoint
import Downhill.Proofs.Vectors

namespace Downhill.InteriorPoint

/-- One passage of the ratio test. -/
theorem ratio_foldl (pairs : List (ℝ × ℝ)) (bound : ℝ) :
    let least := pairs.foldl
      (fun bound l => if l.2 < 0 then Scalar.lesser bound (-l.1 / l.2) else bound) bound
    least ≤ bound ∧ (∀ l ∈ pairs, l.2 < 0 → least ≤ -l.1 / l.2) ∧
      (least = bound ∨ ∃ l ∈ pairs, l.2 < 0 ∧ least = -l.1 / l.2) := by
  induction pairs generalizing bound with
  | nil => simp
  | cons first rest ih =>
    rw [List.foldl_cons]
    by_cases falls : first.2 < 0
    · rw [if_pos falls, Scalar.lesser_exact]
      obtain ⟨below, ratios, attained⟩ := ih (min bound (-first.1 / first.2))
      refine ⟨below.trans (min_le_left _ _), fun l member negative => ?_, ?_⟩
      · rcases List.mem_cons.mp member with rfl | later
        · exact below.trans (min_le_right _ _)
        · exact ratios l later negative
      · rcases attained with same | ⟨l, member, negative, value⟩
        · rcases min_choice bound (-first.1 / first.2) with left | right
          · exact Or.inl (same.trans left)
          · exact Or.inr ⟨first, List.mem_cons_self, falls, same.trans right⟩
        · exact Or.inr ⟨l, List.mem_cons_of_mem _ member, negative, value⟩
    · rw [if_neg falls]
      obtain ⟨below, ratios, attained⟩ := ih bound
      refine ⟨below, fun l member negative => ?_, ?_⟩
      · rcases List.mem_cons.mp member with rfl | later
        · exact absurd negative falls
        · exact ratios l later negative
      · exact attained.imp_right fun ⟨l, member, negative, value⟩ =>
          ⟨l, List.mem_cons_of_mem _ member, negative, value⟩

theorem mem_zip_iff {l d : Coords ℝ} {m : Nat} (left : l.size = m) (right : d.size = m)
    {pair : ℝ × ℝ} :
    pair ∈ List.zip l.toList d.toList ↔ ∃ i, pair = (l.vec m i, d.vec m i) := by
  have lengths : (List.zip l.toList d.toList).length = m := by
    have first : l.toList.length = m := left
    have second : d.toList.length = m := right
    simp [first, second]
  have entries : ∀ i : Fin m, (List.zip l.toList d.toList).get (i.cast lengths.symm) =
      (l.vec m i, d.vec m i) := by
    intro i
    rw [Coords.vec_of_lt (left.symm ▸ i.isLt), Coords.vec_of_lt (right.symm ▸ i.isLt),
      List.get_eq_getElem, List.getElem_zip]
    rfl
  constructor
  · intro member
    obtain ⟨k, within, value⟩ := List.getElem_of_mem member
    exact ⟨⟨k, lengths ▸ within⟩, value.symm.trans (entries ⟨k, lengths ▸ within⟩)⟩
  · rintro ⟨i, rfl⟩
    exact entries i ▸ List.get_mem _ _

section

variable {l d : Coords ℝ} {m : Nat}

theorem maxDualStep_le_one : maxDualStep l d ≤ 1 :=
  (ratio_foldl _ 1).1

theorem maxDualStep_le_ratio (left : l.size = m) (right : d.size = m) {i : Fin m}
    (falls : d.vec m i < 0) : maxDualStep l d ≤ -l.vec m i / d.vec m i :=
  (ratio_foldl _ 1).2.1 _ ((mem_zip_iff left right).mpr ⟨i, rfl⟩) falls

/-- Where it is not one, it is the ratio of some multiplier that falls. -/
theorem maxDualStep_attained (left : l.size = m) (right : d.size = m) :
    maxDualStep l d = 1 ∨ ∃ i, d.vec m i < 0 ∧ maxDualStep l d = -l.vec m i / d.vec m i := by
  refine (ratio_foldl (List.zip l.toList d.toList) 1).2.2.imp_right ?_
  rintro ⟨pair, member, falls, value⟩
  obtain ⟨i, rfl⟩ := (mem_zip_iff left right).mp member
  exact ⟨i, falls, value⟩

/-- Where no multiplier falls by more than it is, the whole change may be made. -/
theorem maxDualStep_eq_one (left : l.size = m) (right : d.size = m) (slow : ∀ i, -d.vec m i ≤ l.vec m i) :
    maxDualStep l d = 1 := by
  refine (maxDualStep_attained left right).elim id fun ⟨i, falls, ratio⟩ => ?_
  refine le_antisymm maxDualStep_le_one ?_
  rw [ratio, neg_div, ← div_neg]
  exact (one_le_div (neg_pos.mpr falls)).mpr (slow i)

theorem maxDualStep_pos (left : l.size = m) (right : d.size = m) (positive : ∀ i, 0 < l.vec m i) :
    0 < maxDualStep l d := by
  rcases maxDualStep_attained left right with one | ⟨i, falls, ratio⟩
  · rw [one]
    exact one_pos
  · rw [ratio]
    exact div_pos_of_neg_of_neg (neg_lt_zero.mpr (positive i)) falls

/-- Within some share of the largest step the rest of every multiplier is left. -/
theorem rest_le (left : l.size = m) (right : d.size = m) (positive : ∀ i, 0 < l.vec m i) {factor share : ℝ}
    (proper : 0 ≤ factor) (nonneg : 0 ≤ share) (within : share ≤ factor * maxDualStep l d) (i : Fin m) :
    (1 - factor) * l.vec m i ≤ l.vec m i + share * d.vec m i := by
  by_cases falls : d.vec m i < 0
  · have bound : share ≤ factor * (-l.vec m i / d.vec m i) :=
      within.trans (mul_le_mul_of_nonneg_left (maxDualStep_le_ratio left right falls) proper)
    have product : factor * (-l.vec m i / d.vec m i) * d.vec m i = -(factor * l.vec m i) := by
      rw [mul_assoc, div_mul_cancel₀ _ falls.ne, mul_neg]
    have fall := mul_le_mul_of_nonpos_right bound falls.le
    rw [product] at fall
    linarith
  · have rise : 0 ≤ share * d.vec m i := mul_nonneg nonneg (not_lt.mp falls)
    have part : 0 ≤ factor * l.vec m i := mul_nonneg proper (positive i).le
    linarith

/-- Within the first share of the largest step a hundredth of every multiplier is left. -/
theorem hundredth_le (left : l.size = m) (right : d.size = m) (positive : ∀ i, 0 < l.vec m i)
    {share : ℝ} (nonneg : 0 ≤ share) (within : share ≤ stepShare * maxDualStep l d) (i : Fin m) :
    l.vec m i / 100 ≤ l.vec m i + share * d.vec m i := by
  have literal : (stepShare : ℝ) = 99 / 100 := by norm_num [stepShare]
  rw [literal] at within
  have rest := rest_le left right positive (by norm_num) nonneg within i
  linarith

/-- Beyond the largest step, and not beyond one, some multiplier is negative. -/
theorem exists_neg_of_lt (left : l.size = m) (right : d.size = m) {share : ℝ} (one : share ≤ 1)
    (beyond : maxDualStep l d < share) : ∃ i, l.vec m i + share * d.vec m i < 0 := by
  rcases maxDualStep_attained left right with clamped | ⟨i, falls, ratio⟩
  · exact absurd (clamped ▸ beyond) (not_lt.mpr one)
  · -- At the ratio itself this multiplier is zero, and it falls.
    refine ⟨i, ?_⟩
    rw [ratio] at beyond
    have fall := mul_lt_mul_of_neg_right beyond falls
    rw [div_mul_cancel₀ _ falls.ne] at fall
    linarith

/-- Positive multipliers and a change of as many entries. The largest step is positive and at most one, and of
the steps up to one exactly those that are no longer than it leave no multiplier negative. -/
theorem maxDualStep_largest (left : l.size = m) (right : d.size = m) (positive : ∀ i, 0 < l.vec m i) :
    0 < maxDualStep l d ∧ maxDualStep l d ≤ 1 ∧
      ∀ share, 0 ≤ share → share ≤ 1 →
        ((∀ i, 0 ≤ l.vec m i + share * d.vec m i) ↔ share ≤ maxDualStep l d) := by
  refine ⟨maxDualStep_pos left right positive, maxDualStep_le_one,
    fun share nonneg one => ⟨fun all => ?_, fun within i => ?_⟩⟩
  · refine not_lt.mp fun beyond => ?_
    obtain ⟨i, negative⟩ := exists_neg_of_lt left right one beyond
    exact absurd (all i) (not_le.mpr negative)
  · have rest := rest_le left right positive zero_le_one nonneg ((one_mul (maxDualStep l d)).symm ▸ within) i
    rwa [sub_self, zero_mul] at rest

end

/-- Three multipliers, of which the first falls fastest for its size: a quarter of the change takes it to zero. -/
theorem maxDualStep_largest_falling :
    let l : Coords ℝ := .ofFn ![1, 2, 0.5]
    let d : Coords ℝ := .ofFn ![-4, 1, -0.25]
    maxDualStep l d = 0.25 ∧ ∀ share : ℝ, 0 ≤ share → share ≤ 1 →
      ((∀ i, 0 ≤ ![1, 2, 0.5] i + share * ![-4, 1, -0.25] i) ↔ share ≤ 0.25) := by
  intro l d
  have left : l.size = 3 := Coords.size_ofFn _
  have right : d.size = 3 := Coords.size_ofFn _
  have lVec : l.vec 3 = ![1, 2, 0.5] := Coords.vec_ofFn _
  have dVec : d.vec 3 = ![-4, 1, -0.25] := Coords.vec_ofFn _
  have positive : ∀ i, 0 < l.vec 3 i := by
    intro i
    rw [lVec]
    fin_cases i <;> norm_num
  obtain ⟨_, _, steps⟩ := maxDualStep_largest left right positive
  rw [lVec, dVec] at steps
  have quarter : maxDualStep l d = 0.25 := by
    refine le_antisymm ?_ ((steps 0.25 (by norm_num) (by norm_num)).mp fun i => ?_)
    · have ratio := maxDualStep_le_ratio left right (i := 0) (by norm_num [dVec])
      norm_num [lVec, dVec] at ratio ⊢
      exact ratio
    · fin_cases i <;> norm_num
  rw [quarter] at steps
  exact ⟨quarter, steps⟩

end Downhill.InteriorPoint
