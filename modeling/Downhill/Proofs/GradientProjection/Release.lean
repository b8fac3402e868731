import Downhill.Proofs.GradientProjection.Certificate

namespace Downhill.GradientProjection

/-- The position of an entry that no other is below, the first of those. -/
structure IsLowest (xs : List ℝ) (position : Nat) (l : ℝ) : Prop where
  value : xs[position]? = some l
  least : ∀ v ∈ xs, l ≤ v
  first : ∀ i < position, ∀ v, xs[i]? = some v → l < v

theorem lowest_concat {α : Type} [Scalar α] (xs : List α) (v : α) : lowest (.ofList (xs ++ [v])) =
    match lowest (.ofList xs) with
    | none => some (xs.length, v)
    | some b => if v < b.2 then some (xs.length, v) else some b := by
  have places : (xs ++ [v]).zipIdx = xs.zipIdx ++ [(v, xs.length)] := by
    rw [List.zipIdx_append, List.zipIdx_singleton, Nat.zero_add]
  exact (congrArg (List.foldl _ none) places).trans List.foldl_append

theorem lowest_cases (xs : List ℝ) :
    xs = [] ∨ ∃ position l, lowest (.ofList xs) = some (position, l) ∧ IsLowest xs position l := by
  induction xs using List.reverseRecOn with
  | nil => exact Or.inl rfl
  | append_singleton xs v ih =>
    refine Or.inr ?_
    rw [lowest_concat]
    obtain rfl | ⟨position, l, found, lowest⟩ := ih
    · exact ⟨0, v, rfl, rfl, by simp, fun i front => absurd front (Nat.not_lt_zero i)⟩
    · rw [found]
      obtain ⟨inside, _⟩ := List.getElem?_eq_some_iff.mp lowest.value
      by_cases below : v < l
      · refine ⟨xs.length, v, if_pos below, List.getElem?_concat_length, fun w member => ?_,
          fun i front w here => ?_⟩
        · rcases List.mem_append.mp member with earlier | last
          · exact below.le.trans (lowest.least w earlier)
          · exact (List.mem_singleton.mp last).ge
        · rw [List.getElem?_append_left front] at here
          exact below.trans_le (lowest.least w (List.mem_of_getElem? here))
      · refine ⟨position, l, if_neg below, ?_, fun w member => ?_, fun i front w here => ?_⟩
        · rw [List.getElem?_append_left inside, lowest.value]
        · rcases List.mem_append.mp member with earlier | last
          · exact lowest.least w earlier
          · exact List.mem_singleton.mp last ▸ not_lt.mp below
        · rw [List.getElem?_append_left (front.trans inside)] at here
          exact lowest.first i front w here

theorem rows_withoutRow {α : Type} {A : Table α} {q : Nat} (inside : q < A.height) :
    (withoutRow A q).rows.toList = A.rows.toList.eraseIdx q := by
  have kept : (List.finRange A.height).filter (·.val ≠ q) = (List.finRange A.height).eraseIdx q := by
    have within : q < (List.finRange A.height).length := inside.trans_eq List.length_finRange.symm
    have place : (List.finRange A.height)[q] = ⟨q, inside⟩ := List.getElem_finRange within
    rw [← (List.nodup_finRange A.height).erase_getElem q within, place,
      (List.nodup_finRange A.height).erase_eq_filter]
    refine List.filter_congr fun i _ => Bool.eq_iff_iff.mpr ?_
    simp [Fin.ext_iff]
  have all : (List.finRange A.height).map A.row = A.rows.toList := by
    have lengths : ((List.finRange A.height).map A.row).length = A.rows.toList.length := by
      rw [List.length_map, List.length_finRange, Array.length_toList, Table.height]
    exact List.ext_getElem lengths fun i _ _ => by simp [Table.row]
  rw [← all, List.eraseIdx_map, ← kept]
  rfl

/-- The rows that are kept are those at the other positions, in their order. -/
theorem mat_withoutRow (A : Table ℝ) (q n : Nat) : ∃ place : Fin (withoutRow A q).height → Fin A.height,
    (∀ i, i ∈ Set.range place ↔ i.val ≠ q) ∧
    ∀ k, (withoutRow A q).mat (withoutRow A q).height n k = A.mat A.height n (place k) := by
  let positions := (List.finRange A.height).filter (·.val ≠ q)
  have count : (withoutRow A q).height = positions.length := A.height_select positions
  have members : ∀ i, i ∈ positions ↔ i.val ≠ q := fun i => by simp [positions]
  refine ⟨positions.get ∘ Fin.cast count, fun i => ?_, A.mat_select positions n⟩
  rw [← members, List.mem_iff_get]
  exact ⟨fun ⟨k, same⟩ => ⟨k.cast count, same⟩, fun ⟨k, same⟩ => ⟨k.cast count.symm, same⟩⟩

/-- Some of the rows combined are all of them combined, without the others. -/
theorem vecMul_of_rows {m k n : Nat} {G : Matrix (Fin m) (Fin n) ℝ} {H : Matrix (Fin k) (Fin n) ℝ}
    {place : Fin k → Fin m} (rows : ∀ i, H i = G (place i)) (w : Fin k → ℝ) :
    ∃ c : Fin m → ℝ, H.vecMul w = G.vecMul c ∧ ∀ i, i ∉ Set.range place → c i = 0 := by
  let picks := (1 : Matrix (Fin m) (Fin m) ℝ).submatrix place (Equiv.refl (Fin m))
  have product : picks * G = H := (Matrix.one_submatrix_mul place _ G).trans (funext fun i => (rows i).symm)
  refine ⟨picks.vecMul w, by rw [Matrix.vecMul_vecMul, product], fun i outside => ?_⟩
  change ∑ j, w j * picks j i = 0
  refine Finset.sum_eq_zero fun j _ => ?_
  have apart : picks j i = 0 := Matrix.one_apply_ne fun same => outside ⟨j, same⟩
  rw [apart, mul_zero]

/-- Where independent rows have one that alone changes along a direction, which differs from one along which
none does by a combination of the rows with a negative weight on it, that row falls and the direction is the
longer one. -/
theorem falls_of_released {m n : Nat} {G : Matrix (Fin m) (Fin n) ℝ} {q : Fin m} {c : Fin m → ℝ} {d d' : Fin n → ℝ}
    (regular : (G * G.transpose).det ≠ 0) (still : G.mulVec d = 0) (others : ∀ i, i ≠ q → G.mulVec d' i = 0)
    (change : d' - d = G.vecMul c) (negative : c q < 0) : G.mulVec d' q < 0 ∧ d ⬝ᵥ d < d' ⬝ᵥ d' := by
  have along : (d' - d) ⬝ᵥ d = 0 := by
    rw [change, ← Matrix.dotProduct_mulVec, still, dotProduct_zero]
  have across : (d' - d) ⬝ᵥ d' = c q * G.mulVec d' q := by
    rw [change, ← Matrix.dotProduct_mulVec, dotProduct]
    exact Finset.sum_eq_single_of_mem q (Finset.mem_univ q) fun i _ apart => by rw [others i apart, mul_zero]
  have differ : d' - d ≠ 0 := by
    intro same
    have vanishes : (G * G.transpose).vecMul c = 0 := by
      rw [← Matrix.vecMul_vecMul, ← change, same, Matrix.zero_vecMul]
    have zero : c = 0 := Matrix.eq_zero_of_vecMul_eq_zero regular vanishes
    rw [zero] at negative
    exact lt_irrefl _ negative
  have longer : 0 < (d' - d) ⬝ᵥ (d' - d) := by
    refine lt_of_le_of_ne (Finset.sum_nonneg fun i _ => mul_self_nonneg _) fun zero => differ ?_
    exact dotProduct_self_eq_zero.mp zero.symm
  have parts : (d' - d) ⬝ᵥ (d' - d) = c q * G.mulVec d' q := by
    rw [dotProduct_sub, along, sub_zero, across]
  have grown : c q * G.mulVec d' q = d' ⬝ᵥ d' - d ⬝ᵥ d := by
    rw [sub_dotProduct, dotProduct_comm d' d] at along
    rw [← across, sub_dotProduct]
    linarith
  rw [parts] at longer
  refine ⟨?_, by linarith⟩
  exact ((mul_pos_iff.mp longer).resolve_left fun both => lt_asymm both.1 negative).2

/-- The change of the direction when a row is released combines the rows, with the weight of the multiplier on that
row; and the other rows do not change along the new direction. -/
theorem change_of_release {gradient d l d' l' : Coords ℝ} {active : Table ℝ} {n : Nat} (size : gradient.size = n)
    (wide : active.width = n) (made : (direction gradient active).outcome = .ok (d, l)) (q : Fin active.height)
    (released : (direction gradient (withoutRow active q)).outcome = .ok (d', l')) :
    ∃ c, d'.vec n - d.vec n = (active.mat active.height n).vecMul c ∧ c q = l.vec active.height q ∧
      ∀ i, i ≠ q → (active.mat active.height n).mulVec (d'.vec n) i = 0 := by
  have across : (withoutRow active q).width = n := wide
  obtain ⟨_, _, balance⟩ := vec_direction size wide made
  obtain ⟨_, _, balance'⟩ := vec_direction size across released
  obtain ⟨_, still'⟩ := mulVec_direction size across released
  obtain ⟨place, kept, rows⟩ := mat_withoutRow active q n
  obtain ⟨c, combined, absent⟩ := vecMul_of_rows rows (l'.vec (withoutRow active q).height)
  refine ⟨l.vec active.height - c, ?_, ?_, fun i apart => ?_⟩
  · rw [Matrix.sub_vecMul, ← combined, eq_sub_of_add_eq' balance.symm, eq_sub_of_add_eq' balance'.symm]
    abel
  · have zero : c q = 0 := absent q fun listed => (kept q).mp listed rfl
    rw [Pi.sub_apply, zero, sub_zero]
  · obtain ⟨k, rfl⟩ := (kept i).mpr fun same => apart (Fin.ext same)
    rw [Matrix.mulVec, ← rows]
    exact congrFun still' k

/-- Where some multiplier is negative, the row of the first of the lowest alone is left out. Along the
direction that the others have, they do not change, the one released falls, and the objective falls as fast as
the direction is long, squared, which is longer than the one before. -/
theorem release_descends {gradient d l : Coords ℝ} {active : Table ℝ}
    (made : (direction gradient active).outcome = .ok (d, l)) (negative : ∃ v ∈ l.toList, v < 0) :
    ∃ q least, ∃ inside : q < active.height, lowest l = some (q, least) ∧ IsLowest l.toList q least ∧ least < 0 ∧
      (withoutRow active q).rows.toList = active.rows.toList.eraseIdx q ∧
      ∀ d' l', (direction gradient (withoutRow active q)).outcome = .ok (d', l') →
        (withoutRow active q).apply d' = .ok (.zeros (withoutRow active q).height) ∧
        (∃ slope, (active.row ⟨q, inside⟩).dot d' = .ok slope ∧ slope < 0) ∧
        (∃ slope, gradient.dot d' = .ok slope ∧ slope = -(d'.norm * d'.norm) ∧ slope < 0) ∧ d.norm < d'.norm := by
  have bound : active.height ≠ 0 := by
    intro free
    cases (direction_of_free gradient free).symm.trans made
    obtain ⟨v, member, _⟩ := negative
    exact absurd member List.not_mem_nil
  obtain ⟨_, slopes, _, _, atSlopes, _⟩ := parts_of_direction bound made
  have wide : active.width = gradient.size := (Table.size_apply atSlopes).1
  obtain ⟨count, dSize, _⟩ := vec_direction rfl wide made
  obtain ⟨regular, still⟩ := mulVec_direction rfl wide made
  obtain ⟨v, member, below⟩ := negative
  obtain empty | ⟨q, least, found, low⟩ := lowest_cases l.toList
  · rw [empty] at member
    cases member
  obtain ⟨within, value⟩ := List.getElem?_eq_some_iff.mp low.value
  have inside : q < active.height := count ▸ within
  have falls : least < 0 := (low.least v member).trans_lt below
  refine ⟨q, least, inside, found, low, falls, rows_withoutRow inside, fun d' l' released => ?_⟩
  have across : (withoutRow active q).width = gradient.size := wide
  obtain ⟨_, dSize', _⟩ := vec_direction rfl across released
  obtain ⟨_, still'⟩ := mulVec_direction rfl across released
  have slope : gradient.pairing d' = -(d'.norm * d'.norm) := slope_direction rfl across released
  obtain ⟨c, change, weight, others⟩ := change_of_release rfl wide made ⟨q, inside⟩ released
  have entry : l.vec active.height ⟨q, inside⟩ = least :=
    (Coords.vec_of_lt (i := ⟨q, inside⟩) within).trans value
  obtain ⟨down, grown⟩ := falls_of_released regular still others change (weight.trans_lt (entry.trans_lt falls))
  have longer : d.norm < d'.norm := by
    rw [Coords.norm_eq dSize.le, Coords.norm_eq dSize'.le]
    exact Real.sqrt_lt_sqrt (Finset.sum_nonneg fun i _ => mul_self_nonneg _) grown
  refine ⟨?_, ⟨_, if_pos ?_, ?_⟩, ⟨_, if_pos dSize'.symm, slope, ?_⟩, longer⟩
  · exact (Table.apply_eq_ok_iff rfl across).mpr
      ⟨dSize', Coords.size_constant _ _, still'.trans Coords.vec_zeros.symm⟩
  · exact (active.size_row _).trans (wide.trans dSize'.symm)
  · rw [Coords.pairing_eq ((active.size_row _).trans wide).le, ← Table.mat_row (i := ⟨q, inside⟩) inside]
    exact down
  · have long : 0 < d'.norm := (Coords.norm_nonneg d).trans_lt longer
    rw [slope]
    exact neg_lt_zero.mpr (mul_pos long long)

/-- The rows `(1, 0)` and `(1, 1)`. -/
noncomputable def wedge : Table ℝ :=
  .ofFn 2 2 fun i j => if i.val < j.val then 0 else 1

theorem wedge_form : wedge.height = 2 ∧ wedge.width = 2 ∧ wedge.mat 2 2 = !![1, 0; 1, 1] := by
  refine ⟨Table.height_ofFn _ _ _, rfl, (Table.mat_ofFn _).trans (Matrix.ext fun i j => ?_)⟩
  fin_cases i <;> fin_cases j <;> simp

/-- Without the first row the second is left. -/
theorem withoutRow_wedge : (withoutRow wedge 0).height = 1 ∧ (withoutRow wedge 0).mat 1 2 = !![1, 1] := by
  refine ⟨(Table.height_select _ _).trans rfl, Matrix.ext fun i j => ?_⟩
  have second : (withoutRow wedge 0).rows[0]? = some (.ofFn fun j : Fin 2 => if 1 < j.val then 0 else 1) := rfl
  rw [Fin.eq_zero i, Table.mat_of_row (i := 0) second, Coords.vec_ofFn]
  fin_cases j <;> simp

section

variable {gradient : Coords ℝ} (size : gradient.size = 2) (slope : gradient.vec 2 = ![0, -1])

include size slope

theorem direction_wedge : ∃ d l, (direction gradient wedge).outcome = .ok (d, l) ∧ d.vec 2 = 0 ∧ l.size = 2 ∧
    l.vec 2 = ![-1, 1] := by
  obtain ⟨high, wide, form⟩ := wedge_form
  obtain ⟨d, l, made⟩ := direction_ok size high wide two_ne_zero fun gram tall broad entries => by
    have products : gram.mat 2 2 = !![1, 1; 1, 2] := by
      rw [entries, form]
      ext i j
      fin_cases i <;> fin_cases j <;> norm_num [Matrix.mul_apply, Fin.sum_univ_two]
    refine Table.eliminate_of_two tall broad (fun i => ?_) ?_
    · rw [products]
      fin_cases i <;> norm_num
    · rw [products, Matrix.det_fin_two_of]
      norm_num [Elimination.pivotFloor]
  obtain ⟨count, _, balance⟩ := vec_direction size wide made
  obtain ⟨_, still⟩ := mulVec_direction size wide made
  rw [high, form] at still balance
  have first : d.vec 2 0 = 0 := by simpa [Matrix.mulVec, dotProduct] using congrFun still 0
  have second : d.vec 2 0 + d.vec 2 1 = 0 := by simpa [Matrix.mulVec, dotProduct] using congrFun still 1
  have left := congrFun balance 0
  have right := congrFun balance 1
  rw [Pi.neg_apply, Pi.add_apply, slope, Matrix.vecMul, dotProduct, Fin.sum_univ_two] at left right
  norm_num at left right
  refine ⟨d, l, made, ?_, count.trans high, ?_⟩
  · ext i
    fin_cases i
    · exact first
    · change d.vec 2 1 = 0
      linarith
  · ext i
    fin_cases i <;> norm_num <;> linarith

theorem direction_released : ∃ d l, (direction gradient (withoutRow wedge 0)).outcome = .ok (d, l) ∧
    d.vec 2 = ![-(1 / 2), 1 / 2] := by
  obtain ⟨alone, row⟩ := withoutRow_wedge
  have wide : (withoutRow wedge 0).width = 2 := rfl
  obtain ⟨d, l, made⟩ := direction_ok size alone wide one_ne_zero fun gram tall broad entries => by
    refine Table.eliminate_of_clear tall broad ?_
    rw [entries, row, Matrix.mul_apply, Fin.sum_univ_two]
    norm_num [Elimination.pivotFloor]
  obtain ⟨_, _, balance⟩ := vec_direction size wide made
  obtain ⟨_, still⟩ := mulVec_direction size wide made
  rw [alone, row] at still balance
  have level := congrFun still 0
  have across := congrFun balance 0
  have along := congrFun balance 1
  rw [Pi.neg_apply, Pi.add_apply, slope, Matrix.vecMul, dotProduct, Fin.sum_univ_one] at across along
  norm_num [Matrix.mulVec, dotProduct, Fin.sum_univ_two] at level across along
  refine ⟨d, l, made, ?_⟩
  ext i
  fin_cases i <;> norm_num <;> linarith

end

/-- In the corner of a wedge the multiplier of the first side is negative. Released from it the direction leads
along the second. -/
theorem release_descends_wedge :
    let gradient : Coords ℝ := .ofFn ![0, -1]
    ∃ d l d' l', (direction gradient wedge).outcome = .ok (d, l) ∧ d.vec 2 = 0 ∧ l.vec 2 = ![-1, 1] ∧
      lowest l = some (0, -1) ∧ (direction gradient (withoutRow wedge 0)).outcome = .ok (d', l') ∧
      d'.vec 2 = ![-(1 / 2), 1 / 2] ∧
      (withoutRow wedge 0).apply d' = .ok (.zeros (withoutRow wedge 0).height) ∧
      (∃ slope, gradient.dot d' = .ok slope ∧ slope < 0) ∧ d.norm < d'.norm := by
  intro gradient
  have size : gradient.size = 2 := Coords.size_ofFn _
  have slope : gradient.vec 2 = ![0, -1] := Coords.vec_ofFn _
  obtain ⟨d, l, made, still, count, weights⟩ := direction_wedge size slope
  have first : (0 : Fin 2).val < l.size := count.symm ▸ Nat.two_pos
  have value : l[0] = -1 := (Coords.vec_of_lt first).symm.trans (by rw [weights]; rfl)
  have member : -1 ∈ l.toList := value ▸ Array.mem_toList_iff.mpr (Array.getElem_mem _)
  obtain ⟨q, least, inside, found, low, _, _, descends⟩ := release_descends made ⟨-1, member, neg_one_lt_zero⟩
  have below := low.least (-1) member
  obtain ⟨within, entry⟩ := List.getElem?_eq_some_iff.mp low.value
  have place : l.vec 2 ⟨q, within.trans_eq count⟩ = least :=
    (Coords.vec_of_lt (i := ⟨q, within.trans_eq count⟩) within).trans entry
  obtain ⟨rfl, rfl⟩ : q = 0 ∧ least = -1 := by
    rw [weights] at place
    have two : q < 2 := within.trans_eq count
    interval_cases q
    · exact ⟨rfl, place.symm⟩
    · norm_num at place
      linarith
  obtain ⟨d', l', released, along⟩ := direction_released size slope
  obtain ⟨keeps, _, ⟨slope', atSlope, _, falls⟩, longer⟩ := descends d' l' released
  exact ⟨d, l, d', l', made, still, weights, found, released, along, keeps, ⟨slope', atSlope, falls⟩, longer⟩

end Downhill.GradientProjection
