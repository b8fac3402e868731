import Mathlib
import Downhill.Method.GradientProjection
import Downhill.Proofs.Elimination.Solution
import Downhill.Proofs.Outcome

namespace Downhill.GradientProjection

section

variable {α : Type} [Scalar α] {config : Config α} {values : Coords α}

theorem mem_activePositions {i : Nat} :
    i ∈ activePositions config values ↔ ∃ inside : i < values.size, -config.eps < values[i] := by
  simp only [activePositions, List.mem_map, List.mem_filter, decide_eq_true_eq, Prod.exists]
  constructor
  · rintro ⟨v, j, ⟨member, active⟩, rfl⟩
    rw [List.mem_zipIdx_iff_getElem?, List.getElem?_eq_some_iff] at member
    obtain ⟨inside, value⟩ := member
    have entry : values[j] = v := value
    exact ⟨inside, entry ▸ active⟩
  · rintro ⟨inside, active⟩
    refine ⟨values[i], i, ⟨?_, active⟩, rfl⟩
    rw [List.mem_zipIdx_iff_getElem?, List.getElem?_eq_some_iff]
    exact ⟨inside, rfl⟩

theorem activePositions_increasing (config : Config α) (values : Coords α) :
    (activePositions config values).Pairwise (· < ·) := by
  have all : (values.toList.zipIdx.map Prod.snd).Pairwise (· < ·) := by
    rw [List.zipIdx_map_snd]
    exact List.pairwise_lt_range'
  exact all.sublist (List.filter_sublist.map Prod.snd)

end

/-- Every active position is one of the rows, whose width they keep. -/
theorem activeRows_wide {α : Type} [Scalar α] (config : Config α) {values : Coords α} {jacobian : Table α}
    (same : values.size = jacobian.height) :
    ∃ active, activeRows config values jacobian = .ok active ∧ active.width = jacobian.width := by
  have inside : ∀ i ∈ activePositions config values, i < jacobian.height := by
    intro i member
    obtain ⟨within, _⟩ := mem_activePositions.mp member
    exact same ▸ within
  exact ⟨jacobian.select (List.pmap Fin.mk _ inside), by rw [activeRows, Table.selectAt, dif_pos inside], rfl⟩

theorem activeRows_ok {α : Type} [Scalar α] (config : Config α) {values : Coords α} {jacobian : Table α}
    (same : values.size = jacobian.height) : ∃ active, activeRows config values jacobian = .ok active := by
  obtain ⟨active, made, _⟩ := activeRows_wide config same
  exact ⟨active, made⟩

/-- The active rows are those of the constraints whose values are above minus the tolerance, in their
order. -/
theorem activeRows_eq_ok {config : Config ℝ} {values : Coords ℝ} {jacobian active : Table ℝ} {m n : Nat}
    (size : values.size = m) (high : jacobian.height = m) (wide : jacobian.width = n)
    (made : activeRows config values jacobian = .ok active) :
    active.width = n ∧ ∃ place : Fin active.height → Fin m, StrictMono place ∧
      (∀ i, i ∈ Set.range place ↔ -config.eps < values.vec m i) ∧
      ∀ k, active.mat active.height n k = jacobian.mat m n (place k) := by
  subst high wide
  have inside : ∀ i ∈ activePositions config values, i < jacobian.height := by
    intro i member
    obtain ⟨within, _⟩ := mem_activePositions.mp member
    exact size ▸ within
  rw [activeRows, Table.selectAt, dif_pos inside] at made
  cases made
  set positions := (activePositions config values).pmap Fin.mk inside with listed
  have increasing : StrictMono positions.get := by
    intro k l less
    have sorted := List.pairwise_iff_getElem.mp (activePositions_increasing config values)
    have lengths : positions.length = (activePositions config values).length := List.length_pmap
    have order := sorted k l (lengths ▸ k.isLt) (lengths ▸ l.isLt) less
    simpa only [listed, List.get_eq_getElem, List.getElem_pmap, Fin.mk_lt_mk] using order
  have members : ∀ i, i ∈ positions ↔ -config.eps < values.vec jacobian.height i := by
    intro i
    have within : i.val < values.size := i.isLt.trans_eq size.symm
    rw [Coords.vec_of_lt within, listed, List.mem_pmap]
    constructor
    · rintro ⟨j, member, rfl⟩
      exact (mem_activePositions.mp member).2
    · intro active
      exact ⟨i.val, mem_activePositions.mpr ⟨within, active⟩, rfl⟩
  have count := jacobian.height_select positions
  refine ⟨rfl, positions.get ∘ Fin.cast count, increasing.comp (Fin.cast_strictMono count), fun i => ?_,
    jacobian.mat_select positions jacobian.width⟩
  · rw [← members, List.mem_iff_get, Set.mem_range]
    constructor
    · rintro ⟨k, same⟩
      exact ⟨k.cast count, same⟩
    · rintro ⟨k, same⟩
      exact ⟨k.cast count.symm, same⟩

/-- Where there are active rows, the direction is put together from the solution of their system. -/
theorem parts_of_direction {α : Type} [Scalar α] {gradient d l : Coords α} {active : Table α}
    (bound : active.height ≠ 0) (made : (direction gradient active).outcome = .ok (d, l)) :
    ∃ gram slopes push, active.mul active.transpose = .ok gram ∧ active.apply gradient = .ok slopes ∧
      solve gram slopes.neg "gradient projection multipliers" = .ok l ∧ active.combineRows l = .ok push ∧
      gradient.neg.sub push = .ok d := by
  unfold direction at made
  rw [if_neg bound] at made
  simp only [Work.outcome_bind_eq_ok, Work.outcome_checked_eq_ok, Work.outcome_except_eq_ok] at made
  obtain ⟨gram, atGram, slopes, atSlopes, multipliers, solved, push, atPush, d', atDirection, same⟩ := made
  obtain ⟨rfl, rfl⟩ := Prod.mk.inj (Except.ok.inj same)
  exact ⟨gram, slopes, push, atGram, atSlopes, solved, atPush, atDirection⟩

theorem direction_of_free {α : Type} [Scalar α] (gradient : Coords α) {active : Table α}
    (free : active.height = 0) : (direction gradient active).outcome = .ok (gradient.neg, .zeros 0) := by
  unfold direction
  rw [if_pos free]
  rfl

section Exact

variable {gradient d l : Coords ℝ} {active : Table ℝ} {n : Nat}

/-- The direction is the gradient, with the rows weighted by the multipliers, reversed. -/
theorem vec_direction (size : gradient.size = n) (wide : active.width = n)
    (made : (direction gradient active).outcome = .ok (d, l)) :
    l.size = active.height ∧ d.size = n ∧
      -d.vec n = gradient.vec n + (active.mat active.height n).vecMul (l.vec active.height) := by
  by_cases free : active.height = 0
  · cases (direction_of_free gradient free).symm.trans made
    have empty : (Coords.zeros 0 : Coords ℝ).vec active.height = 0 :=
      funext fun k => absurd (k.isLt.trans_eq free) (Nat.not_lt_zero _)
    refine ⟨(Coords.size_constant 0 _).trans free.symm, (Coords.size_neg gradient).trans size, ?_⟩
    rw [Coords.vec_neg, neg_neg, empty, Matrix.zero_vecMul, add_zero]
  · obtain ⟨gram, _, push, atGram, _, solved, atPush, atDirection⟩ := parts_of_direction free made
    obtain ⟨_, _, count, _⟩ := solve_eq_ok solved
    obtain ⟨product, found, high, _⟩ := active.mul_ok rfl wide (active.height_transpose.trans wide) rfl
    obtain rfl : product = gram := Except.ok.inj (found.symm.trans atGram)
    obtain ⟨_, dSize⟩ := Coords.size_combine atDirection
    refine ⟨count.trans high, dSize.trans ((Coords.size_neg gradient).trans size), ?_⟩
    rw [Coords.vec_sub atDirection, Coords.vec_neg, Table.vec_combineRows atPush rfl wide]
    abel

/-- Active rows that have a direction are independent, and along it none of them changes. -/
theorem mulVec_direction (size : gradient.size = n) (wide : active.width = n)
    (made : (direction gradient active).outcome = .ok (d, l)) :
    (active.mat active.height n * (active.mat active.height n).transpose).det ≠ 0 ∧
      (active.mat active.height n).mulVec (d.vec n) = 0 := by
  by_cases free : active.height = 0
  · have empty : IsEmpty (Fin active.height) := free ▸ Fin.isEmpty
    exact ⟨by simp [Matrix.det_isEmpty], funext fun k => empty.elim k⟩
  · obtain ⟨_, _, balance⟩ := vec_direction size wide made
    obtain ⟨gram, slopes, _, atGram, atSlopes, solved, _, _⟩ := parts_of_direction free made
    have across : active.transpose.width = active.height := Table.width_ofFn _ _ _
    obtain ⟨product, found, high, _, entries⟩ :=
      active.mul_ok rfl wide (active.height_transpose.trans wide) across
    obtain rfl : product = gram := Except.ok.inj (found.symm.trans atGram)
    rw [Table.mat_transpose rfl wide] at entries
    obtain ⟨_, solution⟩ := mulVec_of_solve solved high
    obtain ⟨_, _, _, regular, _⟩ := solve_eq_ok solved
    rw [high, entries] at regular
    refine ⟨regular, ?_⟩
    rw [entries, ← Matrix.mulVec_mulVec, Matrix.mulVec_transpose, Coords.vec_neg,
      Table.vec_apply atSlopes rfl wide] at solution
    rw [← neg_eq_zero, ← Matrix.mulVec_neg, balance, Matrix.mulVec_add, solution, add_neg_cancel]

/-- The objective falls along the direction as fast as the direction is long, squared. -/
theorem slope_direction (size : gradient.size = n) (wide : active.width = n)
    (made : (direction gradient active).outcome = .ok (d, l)) : gradient.pairing d = -(d.norm * d.norm) := by
  obtain ⟨_, dSize, balance⟩ := vec_direction size wide made
  obtain ⟨_, still⟩ := mulVec_direction size wide made
  have square : d.norm * d.norm = d.vec n ⬝ᵥ d.vec n := by
    rw [Coords.norm_eq dSize.le]
    exact Real.mul_self_sqrt (Finset.sum_nonneg fun i _ => mul_self_nonneg _)
  rw [Coords.pairing_eq size.le, square, eq_sub_of_add_eq balance.symm, sub_dotProduct, ← Matrix.dotProduct_mulVec,
    still, dotProduct_zero, sub_zero, neg_dotProduct]

/-- There is a direction where the products of the rows can be eliminated. -/
theorem direction_ok {m : Nat} (size : gradient.size = n) (high : active.height = m) (wide : active.width = n)
    (bound : m ≠ 0) (regular : ∀ gram : Table ℝ, gram.height = m → gram.width = m →
      gram.mat m m = active.mat m n * (active.mat m n).transpose → ∃ E, gram.eliminate = some E) :
    ∃ d l, (direction gradient active).outcome = .ok (d, l) := by
  have across : active.transpose.width = m := (Table.width_ofFn _ _ _).trans high
  obtain ⟨gram, products, tall, broad, entries⟩ :=
    active.mul_ok high wide (active.height_transpose.trans wide) across
  rw [Table.mat_transpose high wide] at entries
  obtain ⟨E, made⟩ := regular gram tall broad entries
  obtain ⟨slopes, atSlopes, slopesSize⟩ := Table.apply_ok (wide.trans size.symm)
  have count : slopes.neg.size = m := (Coords.size_neg slopes).trans (slopesSize.trans high)
  obtain ⟨l, _, solved, _, lSize⟩ :=
    solve_of_eliminate made (tall.trans count.symm) "gradient projection multipliers"
  obtain ⟨push, atPush, pushSize⟩ := Table.combineRows_ok (lSize.trans (tall.trans high.symm))
  obtain ⟨d, atDirection, _⟩ :=
    Coords.sub_ok ((Coords.size_neg gradient).trans size) (pushSize.trans wide)
  refine ⟨d, l, ?_⟩
  unfold direction
  rw [if_neg (high ▸ bound)]
  simp only [Work.outcome_bind_eq_ok, Work.outcome_checked_eq_ok, Work.outcome_except_eq_ok]
  exact ⟨gram, products, slopes, atSlopes, l, solved, push, atPush, d, atDirection, rfl⟩

end Exact

end Downhill.GradientProjection
