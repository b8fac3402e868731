import Mathlib.Data.List.Basic
import Mathlib.Order.Nat
import Downhill.Decimal.Notation
import Downhill.Proofs.Json.Reading

namespace Downhill

open Json

theorem areDigits_toDigits (n : Nat) : AreDigits (Nat.toDigits 10 n) :=
  ⟨Nat.toDigits_ne_nil, fun _ => Nat.isDigit_of_mem_toDigits (by decide) (by decide)⟩

/-- Only zero starts with a zero. -/
theorem head?_toDigits {n : Nat} (positive : 0 < n) : (Nat.toDigits 10 n).head? ≠ some '0' := by
  induction n using Nat.strongRecOn with
  | _ n ih =>
    by_cases single : n < 10
    · rw [Nat.toDigits_of_lt_base single]
      intro zero
      have same : n.digitChar = '0' := Option.some.inj zero
      exact positive.ne' (Nat.digitChar_eq_zero.mp same)
    · have shorter := ih (n / 10) (by omega) (by omega)
      rw [Nat.toDigits_of_base_le (by decide) (by omega), List.head?_append_of_ne_nil _ Nat.toDigits_ne_nil]
      exact shorter

theorem areWhole_toDigits (n : Nat) : AreWhole (Nat.toDigits 10 n) := by
  refine ⟨areDigits_toDigits n, ?_⟩
  rcases Nat.eq_zero_or_pos n with rfl | positive
  · exact Or.inl (Nat.toDigits_zero 10)
  · exact Or.inr (head?_toDigits positive)

theorem digitsValue_toDigits (n : Nat) : digitsValue (digitValues (Nat.toDigits 10 n)) = n := by
  rw [digitsValue, digitValues, List.foldl_map]
  exact Nat.ofDigitChars_ten_toDigits

/-- An integer is written as a number that is read as the integer. -/
theorem literal_toString (z : Int) : ∃ n, Literal (toString z).toList n ∧ n.toInt? = some z := by
  have unsigned (k : Nat) : Unsigned (Nat.toDigits 10 k) (digitValues (Nat.toDigits 10 k)) [] none := by
    simpa only [List.append_nil] using Unsigned.mk (areWhole_toDigits k) .none .none
  cases z with
  | ofNat k =>
    have written : (toString (Int.ofNat k)).toList = minus false ++ Nat.toDigits 10 k := Nat.toList_repr
    have literal := Literal.mk false (unsigned k)
    refine ⟨_, written ▸ literal, ?_⟩
    simp [Numeral.toInt?, Numeral.isWhole, digitsValue_toDigits]
  | negSucc k =>
    have written : (toString (Int.negSucc k)).toList = minus true ++ Nat.toDigits 10 (k + 1) := by
      change ("-" ++ (k + 1).repr).toList = _
      rw [String.toList_append, Nat.toList_repr]
      rfl
    have literal := Literal.mk true (unsigned (k + 1))
    refine ⟨_, written ▸ literal, ?_⟩
    simp [Numeral.toInt?, Numeral.isWhole, digitsValue_toDigits, Int.negSucc_eq]

/-- A number that is not written with digits alone. -/
def Fractional (cs : List Char) : Prop :=
  ∃ front back power, Unsigned cs front back power ∧ (back ≠ [] ∨ power ≠ none)

theorem Fractional.of_point {ds es : List Char} (whole : AreWhole ds) (digits : AreDigits es) :
    Fractional (ds ++ '.' :: es) := by
  have unsigned := Unsigned.mk whole (.point digits) .none
  rw [List.append_nil] at unsigned
  exact ⟨_, _, _, unsigned, Or.inl (List.map_eq_nil_iff.not.mpr digits.1)⟩

theorem Fractional.of_exponent {ds fs es : List Char} {back : List Nat} {e : Int} (whole : AreWhole ds)
    (fraction : Fraction fs back) (exponent : Exponent es (some e)) : Fractional (ds ++ (fs ++ es)) :=
  ⟨_, _, _, .mk whole fraction exponent, Or.inr (Option.some_ne_none e)⟩

/-- With a sign in front, it is a number that is no whole one. -/
theorem Fractional.exists_literal {cs : List Char} (fractional : Fractional cs) (negative : Bool) :
    ∃ n, Literal (minus negative ++ cs) n ∧ n.isWhole = false := by
  obtain ⟨front, back, power, unsigned, parts⟩ := fractional
  refine ⟨_, .mk negative unsigned, ?_⟩
  rw [Numeral.isWhole, Bool.and_eq_false_iff]
  refine parts.imp ?_ ?_
  · exact fun filled => List.isEmpty_eq_false_iff.mpr filled
  · exact fun there => by cases power with
      | none => exact absurd rfl there
      | some e => rfl

namespace Decimal

theorem isDigit_of_mem_zeros {k : Nat} {c : Char} (member : c ∈ zeros k) : c.isDigit = true :=
  List.eq_of_mem_replicate member ▸ rfl

/-- A decimal that is not zero, written without an exponent, has digits on both sides of its point. -/
theorem fractional_positionalText {d : Decimal} (nonzero : d.coefficient ≠ 0) :
    Fractional (d.positionalText ".0").toList := by
  have lead := head?_toDigits (Nat.pos_of_ne_zero nonzero)
  have digits := areDigits_toDigits d.coefficient
  unfold positionalText
  split
  · next k _ =>
    have whole : AreWhole (Decimal.digits d.coefficient ++ zeros k) := by
      refine ⟨⟨List.append_ne_nil_of_left_ne_nil digits.1 _, fun c member => ?_⟩, Or.inr ?_⟩
      · exact (List.mem_append.mp member).elim (digits.2 c) isDigit_of_mem_zeros
      · rw [Decimal.digits, List.head?_append_of_ne_nil _ digits.1]
        exact lead
    rw [String.toList_append, String.toList_ofList]
    exact .of_point whole (areDigits_of_all (List.cons_ne_nil '0' []) rfl)
  · next k _ =>
    dsimp only
    rw [String.toList_ofList]
    -- Zeros are put in front of digits that do not reach the point, so that a single one stands before it.
    generalize ready :
      zeros (k + 1 + 1 - (Decimal.digits d.coefficient).length) ++ Decimal.digits d.coefficient = padded
    have figures : ∀ c ∈ padded, c.isDigit = true := by
      intro c member
      rw [← ready] at member
      exact (List.mem_append.mp member).elim isDigit_of_mem_zeros (digits.2 c)
    have length : padded.length =
        k + 1 + 1 - (Decimal.digits d.coefficient).length + (Decimal.digits d.coefficient).length := by
      rw [← ready, List.length_append, zeros, List.length_replicate]
    have inside : 0 < padded.length - (k + 1) := by omega
    have front : padded.take (padded.length - (k + 1)) ≠ [] := by
      rw [← List.length_pos_iff, List.length_take]
      omega
    have back : padded.drop (padded.length - (k + 1)) ≠ [] := by
      rw [← List.length_pos_iff, List.length_drop]
      omega
    refine .of_point ⟨⟨front, fun c member => figures c (List.mem_of_mem_take member)⟩, ?_⟩
      ⟨back, fun c member => figures c (List.mem_of_mem_drop member)⟩
    rcases Nat.lt_or_ge (k + 1) (Decimal.digits d.coefficient).length with long | short
    · refine Or.inr ?_
      rw [List.head?_take, if_neg inside.ne', ← ready, Nat.sub_eq_zero_of_le long]
      exact lead
    · refine Or.inl ?_
      have single : padded.length - (k + 1) = 1 := by omega
      obtain ⟨more, fill⟩ : ∃ more, k + 1 + 1 - (Decimal.digits d.coefficient).length = more + 1 :=
        ⟨k + 1 - (Decimal.digits d.coefficient).length, by omega⟩
      rw [single, ← ready, fill, zeros, List.replicate_succ]
      rfl

/-- A decimal with an exponent has its first digit in front of the point. -/
theorem fractional_exponent (c : Nat) (e : Int) :
    Fractional (mantissaText (Decimal.digits c) ++ "e" ++ exponentText "+" e).toList := by
  have digits := areDigits_toDigits c
  obtain ⟨d, ds, split⟩ := List.exists_cons_of_ne_nil digits.1
  rw [split] at digits
  have single : AreWhole [d] := by
    refine ⟨⟨List.cons_ne_nil _ _, fun c member => ?_⟩, ?_⟩
    · exact List.mem_singleton.mp member ▸ digits.2 d List.mem_cons_self
    · by_cases zero : d = '0'
      · exact Or.inl (congrArg (fun c => [c]) zero)
      · exact Or.inr fun first => zero (Option.some.inj first)
  obtain ⟨es, k, exponent, written⟩ : ∃ es k, Exponent es (some k) ∧ ("e" ++ exponentText "+" e).toList = es := by
    cases e with
    | ofNat k => exact ⟨_, _, .plus (areDigits_toDigits k), by simp [exponentText, Decimal.digits]⟩
    | negSucc k => exact ⟨_, _, .minus (areDigits_toDigits (k + 1)), by simp [exponentText, Decimal.digits]⟩
  obtain ⟨fs, back, fraction, mantissa⟩ :
      ∃ fs back, Fraction fs back ∧ (mantissaText (Decimal.digits c)).toList = [d] ++ fs := by
    rw [Decimal.digits, split]
    cases ds with
    | nil => exact ⟨[], [], .none, by simp [mantissaText]⟩
    | cons second more =>
      have behind : AreDigits (second :: more) :=
        ⟨List.cons_ne_nil _ _, fun c member => digits.2 c (List.mem_cons_of_mem _ member)⟩
      exact ⟨_, _, .point behind, by simp [mantissaText]⟩
  rw [String.append_assoc, String.toList_append, written, mantissa, List.append_assoc]
  exact .of_exponent single fraction exponent

theorem fractional_text {d : Decimal} (nonzero : d.coefficient ≠ 0) : Fractional (d.text .stored).toList := by
  unfold text
  split
  · exact fractional_positionalText nonzero
  · exact fractional_exponent d.coefficient d.leading

end Decimal

end Downhill
