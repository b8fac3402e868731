import Downhill.Proofs.GradientProjection.ActiveSet
import Downhill.Proofs.Terms

namespace Downhill.GradientProjection

/-- What no row moves, and differs from a vector by a combination of the rows, is closer to that vector than
anything else that no row moves. -/
theorem sqDist_lt_of_balance {m n : Nat} {G : Matrix (Fin m) (Fin n) ℝ} {u d v : Fin n → ℝ} {w : Fin m → ℝ}
    (balance : u - d = G.vecMul w) (still : G.mulVec d = 0) (other : G.mulVec v = 0) (apart : d ≠ v) :
    sqDist u d < sqDist u v := by
  have across : (u - d) ⬝ᵥ (d - v) = 0 := by
    rw [balance, ← Matrix.dotProduct_mulVec, Matrix.mulVec_sub, still, other, sub_zero, dotProduct_zero]
  exact sqDist_lt_of_obtuse across.ge apart

/-- The direction of some active rows. None of them changes along it; it is the reversed gradient less the rows
weighted with the multipliers; the objective falls along it as fast as it is long, squared; and everything else
along which no row changes is further from the reversed gradient. -/
theorem direction_projects {gradient d l : Coords ℝ} {active : Table ℝ} (bound : 0 < active.height)
    (made : (direction gradient active).outcome = .ok (d, l)) :
    d.size = gradient.size ∧ l.size = active.height ∧
    active.apply d = .ok (.zeros active.height) ∧
    d.vec gradient.size = -gradient.vec gradient.size -
      (active.mat active.height gradient.size).transpose.mulVec (l.vec active.height) ∧
    gradient.dot d = .ok (-(d.norm * d.norm)) ∧
    ∃ near, gradient.neg.sub d = .ok near ∧
      ∀ v, active.apply v = .ok (.zeros active.height) → v ≠ d →
        ∃ far, gradient.neg.sub v = .ok far ∧ near.norm < far.norm := by
  obtain ⟨_, slopes, _, _, atSlopes, _⟩ := parts_of_direction bound.ne' made
  have wide : active.width = gradient.size := (Table.size_apply atSlopes).1
  obtain ⟨count, size, balance⟩ := vec_direction rfl wide made
  obtain ⟨_, still⟩ := mulVec_direction rfl wide made
  have slope : gradient.pairing d = -(d.norm * d.norm) := slope_direction rfl wide made
  have difference : -gradient.vec gradient.size - d.vec gradient.size =
      (active.mat active.height gradient.size).vecMul (l.vec active.height) := by
    rw [sub_eq_add_neg, balance, neg_add_cancel_left]
  obtain ⟨near, atNear, _⟩ := Coords.sub_ok (Coords.size_neg gradient) size
  refine ⟨size, count, ?_, ?_, ?_, near, atNear, fun v stays apart => ?_⟩
  · exact (Table.apply_eq_ok_iff rfl wide).mpr ⟨size, Coords.size_constant _ _, still.trans Coords.vec_zeros.symm⟩
  · rw [Matrix.mulVec_transpose, ← difference, sub_sub_cancel]
  · rw [← slope]
    exact if_pos size.symm
  · obtain ⟨vSize, _, other⟩ := (Table.apply_eq_ok_iff rfl wide).mp stays
    rw [Coords.vec_zeros] at other
    obtain ⟨far, atFar, _⟩ := Coords.sub_ok (Coords.size_neg gradient) vSize
    have vectors : d.vec gradient.size ≠ v.vec gradient.size :=
      fun same => apart (Coords.eq_of_vec vSize size same.symm)
    have closer := sqDist_lt_of_balance difference still other vectors
    refine ⟨far, atFar, ?_⟩
    rw [Coords.norm_of_sub (Coords.size_neg gradient) atNear, Coords.norm_of_sub (Coords.size_neg gradient) atFar,
      Coords.vec_neg]
    exact Real.sqrt_lt_sqrt (sqDist_nonneg _ _) closer

/-- Along a line that the gradient crosses at an angle, half of it is left. -/
theorem direction_projects_diagonal :
    let gradient : Coords ℝ := .ofFn ![1, 0]
    let active : Table ℝ := .ofFn 1 2 fun _ _ => 1
    ∃ d l near, (direction gradient active).outcome = .ok (d, l) ∧ d.vec 2 = ![-(1 / 2), 1 / 2] ∧
      gradient.dot d = .ok (-(d.norm * d.norm)) ∧ gradient.neg.sub d = .ok near ∧
      ∀ v, active.apply v = .ok (.zeros 1) → v ≠ d →
        ∃ far, gradient.neg.sub v = .ok far ∧ near.norm < far.norm := by
  intro gradient active
  have size : gradient.size = 2 := Coords.size_ofFn _
  have high : active.height = 1 := Table.height_ofFn _ _ _
  have wide : active.width = 2 := rfl
  have ones : active.mat 1 2 = Matrix.of fun _ _ => 1 := Table.mat_ofFn _
  have bound : 0 < active.height := high ▸ Nat.one_pos
  obtain ⟨d, l, made⟩ := direction_ok size high wide one_ne_zero fun gram tall broad entries => by
    refine Table.eliminate_of_clear tall broad ?_
    rw [entries, ones, Matrix.mul_apply, Fin.sum_univ_two]
    norm_num [Elimination.pivotFloor]
  obtain ⟨_, _, stays, parts, slope, near, atNear, closest⟩ := direction_projects bound made
  rw [size, high, ones, Coords.vec_ofFn] at parts
  rw [high] at stays closest
  refine ⟨d, l, near, made, ?_, slope, atNear, closest⟩
  obtain ⟨_, _, still⟩ := (Table.apply_eq_ok_iff high wide).mp stays
  rw [ones] at still
  have level : d.vec 2 0 + d.vec 2 1 = 0 := by simpa [Matrix.mulVec, dotProduct] using congrFun still 0
  have first : d.vec 2 0 = -1 - l.vec 1 0 := by simpa [Matrix.mulVec, dotProduct] using congrFun parts 0
  have second : d.vec 2 1 = -l.vec 1 0 := by simpa [Matrix.mulVec, dotProduct] using congrFun parts 1
  ext i
  fin_cases i
  · change d.vec 2 0 = -(1 / 2)
    linarith
  · change d.vec 2 1 = 1 / 2
    linarith

end Downhill.GradientProjection
