import Mathlib.Algebra.Order.Field.Power
import Mathlib.Algebra.Order.Field.Rat
import Mathlib.Tactic.FieldSimp
import Mathlib.Tactic.Positivity
import Mathlib.Tactic.Ring
import Downhill.Decimal.Shortest

namespace Downhill

namespace Ratio

/-- The number that a fraction stands for. -/
def value (r : Ratio) : ℚ :=
  r.num / r.den

theorem den_shift_pos {r : Ratio} (positive : 0 < r.den) (e : Int) : 0 < (r.shift e).den := by
  cases e with
  | ofNat k => exact positive
  | negSucc k => exact Nat.mul_pos positive (Nat.pow_pos (by decide))

theorem value_shift (r : Ratio) (e : Int) : (r.shift e).value = r.value * 10 ^ e := by
  cases e with
  | ofNat k =>
    change ((r.num * 10 ^ k : ℕ) : ℚ) / r.den = r.num / r.den * 10 ^ ((k : ℕ) : ℤ)
    rw [zpow_natCast]
    push_cast
    ring
  | negSucc k =>
    change (r.num : ℚ) / ((r.den * 10 ^ (k + 1) : ℕ) : ℚ) = r.num / r.den * 10 ^ (Int.negSucc k)
    rw [zpow_negSucc]
    push_cast
    rw [div_mul_eq_div_div, div_eq_mul_inv _ ((10 : ℚ) ^ (k + 1))]

/-- What is at least one is not rounded to zero. -/
theorem round_pos {r : Ratio} (positive : 0 < r.den) (large : 1 ≤ r.value) (tie : Tie) : 0 < r.round tie := by
  have reaches : r.den ≤ r.num := by
    have below : (0 : ℚ) < r.den := by exact_mod_cast positive
    have ratio : (1 : ℚ) ≤ r.num / r.den := large
    rw [le_div_iff₀ below, one_mul] at ratio
    exact_mod_cast ratio
  have low : 0 < r.num / r.den := Nat.div_pos reaches positive
  unfold round
  dsimp only
  split_ifs <;> omega

theorem lt_pow_digitCount (n : Nat) : n < 10 ^ digitCount n :=
  (Nat.length_toDigits_le_iff (by decide) Nat.length_toDigits_pos).mp (Nat.le_refl _)

theorem pow_digitCount_le {n : Nat} (positive : 0 < n) : 10 ^ (digitCount n - 1) ≤ n := by
  rcases Nat.eq_zero_or_pos (digitCount n - 1) with zero | more
  · rw [zero]
    exact positive
  · refine Nat.le_of_not_lt fun below => ?_
    have shorter : digitCount n ≤ digitCount n - 1 := (Nat.length_toDigits_le_iff (by decide) more).mpr below
    omega

/-- The leading digit of a positive fraction stands for no more than the fraction. -/
theorem pow_leading_le {r : Ratio} (above : 0 < r.num) (below : 0 < r.den) : (10 : ℚ) ^ r.leading ≤ r.value := by
  have den : (0 : ℚ) < r.den := by exact_mod_cast below
  unfold leading
  dsimp only
  split
  · next reached =>
    have guess := value_shift (Ratio.mk 1 1) ((digitCount r.num : Int) - digitCount r.den)
    have one : (Ratio.mk 1 1).value = 1 := by norm_num [value]
    rw [one, one_mul] at guess
    have grid : (0 : ℚ) < ((Ratio.mk 1 1).shift ((digitCount r.num : Int) - digitCount r.den)).den := by
      exact_mod_cast den_shift_pos (r := ⟨1, 1⟩) (by decide) _
    rw [← guess, value, value, div_le_div_iff₀ grid den]
    exact_mod_cast reached
  · -- One less than the difference of the numbers of digits is always reached.
    have top : (10 : ℚ) ^ (digitCount r.num - 1) ≤ r.num := by exact_mod_cast pow_digitCount_le above
    have bottom : (r.den : ℚ) ≤ 10 ^ digitCount r.den := by exact_mod_cast (lt_pow_digitCount r.den).le
    have counted : 0 < digitCount r.num := Nat.length_toDigits_pos
    have exponent : (digitCount r.num : Int) - digitCount r.den - 1 =
        (digitCount r.num - 1 : Nat) - (digitCount r.den : Int) := by
      omega
    rw [exponent, zpow_sub₀ (by norm_num), zpow_natCast, zpow_natCast, value]
    exact div_le_div₀ (by positivity) top den bottom

end Ratio

namespace Decimal

theorem coefficient_stripAux {fuel c : Nat} {e : Int} (nonzero : c ≠ 0) : (stripAux fuel c e).coefficient ≠ 0 := by
  induction fuel generalizing c e with
  | zero => exact nonzero
  | succ fuel ih =>
    unfold stripAux
    split
    · next ending => exact ih (by omega)
    · exact nonzero

/-- A positive fraction rounded to some of its digits is not zero. -/
theorem coefficient_ofDigits {r : Ratio} (above : 0 < r.num) (below : 0 < r.den) {count : Nat}
    (nonempty : 0 < count) (tie : Tie) : (ofDigits r count tie).coefficient ≠ 0 := by
  have large : 1 ≤ (r.shift (count - 1 - r.leading)).value := by
    rw [Ratio.value_shift]
    calc (1 : ℚ) ≤ 10 ^ ((count : Int) - 1) := one_le_zpow₀ (by norm_num) (by omega)
      _ = 10 ^ r.leading * 10 ^ ((count : Int) - 1 - r.leading) := by
        rw [← zpow_add₀ (by norm_num)]
        congr 1
        ring
      _ ≤ r.value * 10 ^ ((count : Int) - 1 - r.leading) := by
        exact mul_le_mul_of_nonneg_right (Ratio.pow_leading_le above below) (by positivity)
  exact (Ratio.round_pos (Ratio.den_shift_pos below _) large tie).ne'

end Decimal

namespace RoundingInterval

/-- An interval of positive numbers does not hold zero. -/
theorem coefficient_onGrid {i : RoundingInterval} (low : 0 < i.low) {tie : Tie} {places : Int} {d : Decimal}
    (found : i.onGrid tie places = some d) : d.coefficient ≠ 0 := by
  have outside : i.holds ((Ratio.mk 0 1).shift (-places)) = false := by
    have zero : ((Ratio.mk 0 1).shift (-places)).num = 0 := by
      cases -places with
      | ofNat k => exact Nat.zero_mul _
      | negSucc k => rfl
    have den : 0 < ((Ratio.mk 0 1).shift (-places)).den := Ratio.den_shift_pos (by decide) _
    have positive := Nat.mul_pos low den
    unfold holds
    rw [zero, Nat.zero_mul]
    split
    · exact decide_eq_false fun inside => absurd inside.1 (Nat.not_le.mpr positive)
    · exact decide_eq_false fun inside => absurd inside.1 (Nat.not_lt_zero _)
  have kept {c : Nat} (inside : i.holds ((Ratio.mk c 1).shift (-places)) = true)
      (same : some (⟨c, -places⟩ : Decimal) = some d) : d.coefficient ≠ 0 := by
    cases same
    rintro rfl
    exact Bool.false_ne_true (outside.symm.trans inside)
  unfold onGrid at found
  dsimp only at found
  split_ifs at found with nearest below above next
  · exact kept nearest found
  · exact kept above found
  · exact kept next found

theorem around_pos {m : Nat} (positive : 0 < m) (e : Int) :
    0 < (around m e).low ∧ 0 < (around m e).middle ∧ 0 < (around m e).den := by
  have unit : 0 < (Ratio.scaled 1 2 (e - 2)).num ∧ 0 < (Ratio.scaled 1 2 (e - 2)).den := by
    cases e - 2 with
    | ofNat k => exact ⟨Nat.mul_pos Nat.one_pos (Nat.pow_pos (by decide)), Nat.one_pos⟩
    | negSucc k => exact ⟨Nat.one_pos, Nat.pow_pos (by decide)⟩
  have below : 0 < 4 * m - if m = Double.leadingBit ∧ Double.lowestExponent < e then 1 else 2 := by
    split <;> omega
  exact ⟨Nat.mul_pos below unit.1, Nat.mul_pos (by omega) unit.1, unit.2⟩

end RoundingInterval

/-- The shortest decimal of a positive double is not zero. -/
theorem Decimal.coefficient_shortest (tie : Tie) {m : Nat} (positive : 0 < m) (e : Int) :
    (shortest tie m e).coefficient ≠ 0 := by
  obtain ⟨low, middle, den⟩ := RoundingInterval.around_pos positive e
  have either {found : Option Decimal} {other : Decimal} (there : ∀ d, found = some d → d.coefficient ≠ 0)
      (fallback : other.coefficient ≠ 0) : (found.getD other).coefficient ≠ 0 := by
    cases found with
    | none => exact fallback
    | some d => exact there d rfl
  refine coefficient_stripAux (either (fun d found => ?_) ?_)
  · obtain ⟨digits, _, grid⟩ := List.exists_of_findSome?_eq_some found
    exact RoundingInterval.coefficient_onGrid low grid
  · exact coefficient_ofDigits (r := ⟨_, _⟩) middle den (by decide) tie

end Downhill
