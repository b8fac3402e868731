import Mathlib
import Downhill.Proofs.Affine
import Downhill.Proofs.Newton
import Downhill.Proofs.Run.Trajectory

namespace Downhill.Newton

variable {config : Config ℝ} {f : Objective ℝ} {A : Table ℝ} {c x : Coords ℝ} {s s' : PointState ℝ}

section

variable {value slope : ℝ} {gradient d : Coords ℝ} {hessian : Table ℝ} {found : Armijo.Outcome ℝ}
  (moves : Moves config f s value gradient hessian d slope found s') (quadratic : f.IsQuadratic A c)
  (size : s.point.size = c.size)

include moves quadratic size

/-- The direction leads to the center, and the slope there is minus twice the value. -/
theorem Moves.toward_center : d.size = c.size ∧ d.vec c.size = -(s.point.vec c.size - c.vec c.size) ∧
    f.value s.point = .ok value ∧ slope = -2 * value := by
  obtain ⟨here, atGradient, gradientSize⟩ :=
    quadratic.conforming.of_expand quadratic.expands size moves.expand_eq
  obtain rfl := Except.ok.inj ((quadratic.hessian s.point size).symm.trans moves.hessian_eq)
  obtain ⟨_, _, _, regular, _⟩ := solve_eq_ok moves.direction_eq
  obtain ⟨dSize, solved⟩ := vec_direction moves.direction_eq quadratic.high
  have slopes := quadratic.gradient s.point gradient size atGradient
  rw [quadratic.high] at regular
  have toward : d.vec c.size = -(s.point.vec c.size - c.vec c.size) := by
    refine Matrix.mulVec_injective_of_det_ne_zero regular ?_
    rw [solved, slopes, Matrix.mulVec_neg]
  refine ⟨dSize, toward, here, ?_⟩
  rw [(Coords.dot_eq gradientSize.le moves.slope_eq).2, slopes, toward, dotProduct_neg, dotProduct_comm,
    quadratic.value s.point value size here]
  ring

/-- What is tried at a step is the point that has so much less left to go. -/
theorem Moves.tried {t : ℝ} {y : Coords ℝ} (tried : Armijo.candidate s.point d t = .ok y) :
    y.size = c.size ∧ y.vec c.size - c.vec c.size = (1 - t) • (s.point.vec c.size - c.vec c.size) := by
  obtain ⟨_, toward, _⟩ := moves.toward_center quadratic size
  refine ⟨(Coords.size_combine tried).2.trans size, ?_⟩
  rw [Coords.vec_add tried, Coords.vec_scale, toward]
  module

/-- Unless the search starts in the center, a step is accepted up to twice the fraction that is not required. -/
theorem Moves.accepts_iff (above : 0 < value) {t : ℝ} (positive : 0 < t) :
    Backtracking.Accepts (config.search.attempt f s.point d value slope) t ↔ t ≤ 2 * (1 - config.alpha) := by
  obtain ⟨dSize, _, here, steep⟩ := moves.toward_center quadratic size
  obtain ⟨y, tried, ySize⟩ := Coords.add_ok size ((Coords.size_scale d t).trans dSize)
  obtain ⟨w, there⟩ := quadratic.conforming.value y ySize
  have less : w = (1 - t) ^ 2 * value :=
    quadratic.value_ray here there size ySize (moves.tried quadratic size tried).2
  have accepts : Backtracking.Accepts (config.search.attempt f s.point d value slope) t ↔
      w ≤ value + config.alpha * t * slope := by
    constructor
    · rintro ⟨v, made⟩
      obtain ⟨z, same, atValue, low⟩ := Armijo.attempt_eq_ok.mp made
      obtain rfl := Except.ok.inj (tried.symm.trans same)
      obtain rfl := Except.ok.inj (there.symm.trans atValue)
      exact of_decide_eq_true low
    · exact fun low => ⟨w, Armijo.attempt_eq_ok.mpr ⟨y, tried, there, decide_eq_true low⟩⟩
  have gap : value + config.alpha * t * slope - w = t * value * (2 * (1 - config.alpha) - t) := by
    rw [less, steep]
    ring
  rw [accepts, ← sub_nonneg, gap, mul_nonneg_iff_of_pos_left (mul_pos positive above), sub_nonneg]

end

section

variable (quadratic : f.IsQuadratic A c) (valid : schema.validate config = .ok ())

include quadratic valid

/-- Every step goes the same share of the way to the center. -/
theorem step_quadratic (definite : (A.mat c.size c.size).PosDef) (size : s.point.size = c.size)
    (made : (step config f s).outcome = .ok s') {j : Nat}
    (least : IsLeast {j : Nat | config.beta ^ j ≤ 2 * (1 - config.alpha) ∨ j = 100} j) :
    s'.point.size = c.size ∧
      s'.point.vec c.size - c.vec c.size = (1 - config.beta ^ j) • (s.point.vec c.size - c.vec c.size) := by
  obtain ⟨_, shrinks, _⟩ := validate_eq_ok.mp valid
  obtain ⟨value, gradient, hessian, d, slope, found, moves⟩ := step_eq_ok.mp made
  have moved := moves.point_eq
  rw [Coords.advance_eq_add_scale mul_comm] at moved
  obtain ⟨landed, ray⟩ := moves.tried quadratic size moved
  refine ⟨landed, ?_⟩
  obtain ⟨_, _, here, _⟩ := moves.toward_center quadratic size
  obtain ⟨nonneg, center⟩ := quadratic.least definite size here
  -- In the center any step is accepted, and none leads away.
  rcases nonneg.eq_or_lt with none | positive
  · rw [ray, center none.symm, sub_self, smul_zero, smul_zero]
  · obtain ⟨last, searched, rfl⟩ := Armijo.run_eq_ok.mp moves.search_eq
    have ends := Backtracking.run_endsAt searched
    have same : last.shrinks = j := by
      refine IsLeast.unique (ends.isLeast fun i => ?_) least
      change Backtracking.Accepts _ (Backtracking.trialStep 1 config.beta i) ↔ _
      rw [moves.accepts_iff quadratic size positive (Backtracking.trialStep_pos one_pos shrinks i),
        Backtracking.trialStep_eq]
      exact iff_of_eq (congrArg (· ≤ _) (one_mul _))
    have share : last.step = config.beta ^ j := by
      rw [ends.step, Backtracking.trialStep_eq, same]
      exact one_mul _
    rw [ray, ← share]

theorem after_quadratic (definite : (A.mat c.size c.size).PosDef) (size : x.size = c.size) {j : Nat}
    (least : IsLeast {j : Nat | config.beta ^ j ≤ 2 * (1 - config.alpha) ∨ j = 100} j) {k : Nat}
    (reached : method.after config f x () k = .ok (s, ())) : s.point.size = c.size ∧
      s.point.vec c.size - c.vec c.size = (1 - config.beta ^ j) ^ k • (x.vec c.size - c.vec c.size) := by
  induction k generalizing s with
  | zero =>
    cases reached
    exact ⟨size, by rw [pow_zero, one_smul]; rfl⟩
  | succ k ih =>
    obtain ⟨before, _, earlier, made, _⟩ := Method.after_succ_eq_ok.mp reached
    obtain ⟨same, left⟩ := ih earlier
    obtain ⟨landed, next⟩ := step_quadratic quadratic valid definite same made least
    refine ⟨landed, ?_⟩
    rw [next, left, smul_smul, ← pow_succ']

end

/-- Where the matrix can be factored no step fails, and where it cannot the first one does. -/
theorem after_quadratic_iff (quadratic : f.IsQuadratic A c) (size : x.size = c.size) {k : Nat} (later : 1 ≤ k) :
    (∃ s, method.after config f x () k = .ok (s, ())) ↔ ∃ E, A.eliminate = some E := by
  have conforming : f.Conforming x.size := size ▸ quadratic.conforming
  have constant : ∀ z, z.size = x.size → f.hessian z = .ok A := fun z fits => quadratic.hessian z (fits.trans size)
  have high : A.height = x.size := quadratic.high.trans size.symm
  rw [after_ok_iff conforming (size ▸ quadratic.expands) fun y H fits atHessian =>
    Except.ok.inj ((constant y fits).symm.trans atHessian) ▸ high]
  constructor
  · exact fun directed => (solves_iff (s := .initial x) conforming rfl (constant x rfl) high).mp
      (directed 0 later (.initial x) rfl)
  · exact fun factored => directed_of_hessian conforming constant high factored k

/-- On half a positive definite form each step leaves the same share of the way to the center, and its square
of the value, with `j` for the least number of shrinks to twice the fraction that is not required; nothing is
left if at most half is. To come to any state but the start the matrix must factor. -/
theorem contracts_quadratic (config : Config ℝ) (f : Objective ℝ) (A : Table ℝ) (c x : Coords ℝ)
    (valid : schema.validate config = .ok ()) (quadratic : f.IsQuadratic A c)
    (definite : (A.mat c.size c.size).PosDef) (size : x.size = c.size) :
    (∃ j, IsLeast {j : Nat | config.beta ^ j ≤ 2 * (1 - config.alpha) ∨ j = 100} j ∧
      ∀ k s, method.after config f x () k = .ok (s, ()) → ∃ r r' v v', x.sub c = .ok r ∧ s.point.sub c = .ok r' ∧
        f.value x = .ok v ∧ f.value s.point = .ok v' ∧ r' = r.scale ((1 - config.beta ^ j) ^ k) ∧
        v' = (1 - config.beta ^ j) ^ (2 * k) * v) ∧
    (config.alpha ≤ 1 / 2 → ∀ k s, 1 ≤ k → method.after config f x () k = .ok (s, ()) → s.point = c) ∧
    (f.value c = .ok 0 ∧ ∀ y v, y.size = c.size → f.value y = .ok v → 0 ≤ v ∧ (v = 0 → y = c)) ∧
    ∀ k, 1 ≤ k → ((∃ s, method.after config f x () k = .ok (s, ())) ↔ ∃ E, A.eliminate = some E) := by
  have least := isLeast_csInf (s := {j : Nat | config.beta ^ j ≤ 2 * (1 - config.alpha) ∨ j = 100})
    ⟨100, Or.inr rfl⟩
  refine ⟨⟨_, least, fun k s reached => ?_⟩, fun half k s later reached => ?_,
    ⟨quadratic.value_center, fun y v fits here => quadratic.least definite fits here⟩,
    fun k later => after_quadratic_iff quadratic size later⟩
  · obtain ⟨landed, ray⟩ := after_quadratic quadratic valid definite size least reached
    obtain ⟨r, apart, rSize⟩ := Coords.sub_ok size rfl
    obtain ⟨r', apart', rSize'⟩ := Coords.sub_ok landed rfl
    obtain ⟨v, here⟩ := quadratic.conforming.value x size
    obtain ⟨v', there⟩ := quadratic.conforming.value s.point landed
    refine ⟨r, r', v, v', apart, apart', here, there, ?_, ?_⟩
    · refine Coords.eq_of_vec rSize' ((Coords.size_scale r _).trans rSize) ?_
      rw [Coords.vec_scale, Coords.vec_sub apart, Coords.vec_sub apart', ray]
    · rw [quadratic.value_ray here there size landed ray, ← pow_mul, mul_comm k 2]
  · -- The full step is accepted, and leaves nothing.
    have full : IsLeast {j : Nat | config.beta ^ j ≤ 2 * (1 - config.alpha) ∨ j = 100} 0 := by
      refine ⟨Or.inl ?_, fun j _ => Nat.zero_le j⟩
      rw [pow_zero]
      linarith
    obtain ⟨landed, ray⟩ := after_quadratic quadratic valid definite size full reached
    rw [pow_zero, sub_self, zero_pow (Nat.one_le_iff_ne_zero.mp later), zero_smul, sub_eq_zero] at ray
    exact Coords.eq_of_vec landed rfl ray

theorem slanted_eliminated : ∃ E, Table.slanted.eliminate = some E := by
  refine Table.eliminate_of_two Table.height_slanted rfl (fun i => ?_) ?_
  · rw [Table.mat_slanted]
    fin_cases i <;> norm_num
  · rw [Table.mat_slanted, Matrix.det_fin_two_of]
    norm_num [Elimination.pivotFloor]

/-- More than half of the promised decrease is required, so three steps leave an eighth of the way. -/
theorem contracts_quadratic_slanted : ∃ s : PointState ℝ,
    method.after ⟨0.75, 0.5⟩ .slanted (.constant 2 1) () 3 = .ok (s, ()) ∧ s.point = .constant 2 0.125 := by
  have valid : schema.validate (⟨0.75, 0.5⟩ : Config ℝ) = .ok () := validate_eq_ok.mpr (by norm_num)
  have origin : (Coords.zeros 2 : Coords ℝ).size = 2 := Coords.size_constant 2 0
  obtain ⟨⟨j, least, course⟩, _, _, total⟩ := contracts_quadratic ⟨0.75, 0.5⟩ .slanted .slanted (.zeros 2)
    (.constant 2 1) valid (Objective.quadratic_isQuadratic (Table.height_slanted.trans origin.symm) origin.symm)
    (origin.symm ▸ Table.posDef_slanted) rfl
  obtain ⟨s, reached⟩ := (total 3 (by norm_num)).mpr slanted_eliminated
  obtain ⟨r, r', _, _, apart, apart', _, _, left, _⟩ := course 3 s reached
  -- The full step is refused, and half of it taken.
  obtain rfl : j = 1 := by
    refine least.unique ⟨Or.inl (by norm_num), ?_⟩
    rintro (_ | i) (small | whole)
    · norm_num at small
    · cases whole
    · omega
    · omega
  refine ⟨s, reached, Coords.eq_of_vec ((Coords.size_combine apart').1.trans origin) (Coords.size_constant 2 _) ?_⟩
  have moved := Coords.vec_sub apart' 2
  rw [left, Coords.vec_scale, Coords.vec_sub apart, Coords.vec_zeros, sub_zero, sub_zero] at moved
  rw [← moved, Coords.vec_constant, Coords.vec_constant]
  funext i
  norm_num

end Downhill.Newton
