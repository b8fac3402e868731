import Downhill.Proofs.InteriorPoint.QuadraticProgram
import Downhill.Proofs.InteriorPoint.Stop

namespace Downhill.InteriorPoint

variable {config : Config ℝ} {p : Constrained ℝ} {H J : Table ℝ} {n m : Nat} {s s' : MultiplierState ℝ}

/-- Of one constraint, where the product of its value and its multiplier is not below a floor. -/
theorem product_le_of_floor {c l z d η τ floor : ℝ} (product : -(c * l) = η)
    (centred : l * z + c * d = -(l * c) - τ) (positive : 0 < floor) (above : floor ≤ η) :
    4 * -(d * z) ≤ τ ^ 2 / floor - 2 * τ + η := by
  have here : 0 < η := positive.trans_le above
  have square : 4 * -(d * z) * η ≤ (η - τ) ^ 2 := by
    have sum : l * z + c * d = η - τ := by rw [centred, mul_comm l c, product]
    have turned : 4 * -(d * z) * η = 4 * (l * z) * (c * d) := by
      rw [← product]
      ring
    rw [turned, ← sum]
    exact four_mul_le_sq_add (l * z) (c * d)
  calc 4 * -(d * z) ≤ (η - τ) ^ 2 / η := (le_div_iff₀ here).mpr square
    _ = τ ^ 2 / η - 2 * τ + η := by
        field_simp
        ring
    _ ≤ τ ^ 2 / floor - 2 * τ + η := by
        linarith [div_le_div_of_nonneg_left (sq_nonneg τ) positive above]

theorem dotProduct_le_of_floor {c l z d : Fin m → ℝ} {τ floor : ℝ}
    (centred : ∀ i, l i * z i + c i * d i = -(l i * c i) - τ) (positive : 0 < floor)
    (above : ∀ i, floor ≤ -(c i * l i)) : 4 * -(d ⬝ᵥ z) ≤ m * (τ ^ 2 / floor - 2 * τ) + -(c ⬝ᵥ l) := by
  have each : ∑ i, 4 * -(d i * z i) ≤ ∑ i, (τ ^ 2 / floor - 2 * τ + -(c i * l i)) :=
    Finset.sum_le_sum fun i _ => product_le_of_floor rfl (centred i) positive (above i)
  rwa [← Finset.mul_sum, Finset.sum_add_distrib, Finset.sum_const, Finset.card_univ, Fintype.card_fin, nsmul_eq_mul,
    Finset.sum_neg_distrib, Finset.sum_neg_distrib] at each

/-- The gap is what the products of the values and their multipliers add up to. -/
theorem Interior.eta_eq (inside : Interior p.constraints n s) (program : QuadraticProgram p H J n)
    (r : Reading p s) : r.eta = -(r.values.vec p.constraints.count ⬝ᵥ s.multipliers.vec p.constraints.count) :=
  ((gap_eq_ok (program.constraints.size_values inside.dimension r.values_eq)).mp r.gap_eq).2

/-- No product of a value and its multiplier is below a share of their mean. -/
def Reading.Balanced (r : Reading p s) (m : Nat) (κ : ℝ) : Prop :=
  ∀ i : Fin m, κ * (r.eta / m) ≤ -(r.values.vec m i * s.multipliers.vec m i)

section

variable (program : QuadraticProgram p H J n) (inside : Interior p.constraints n s) {r : Reading p s}
  {centrality dx dl : Coords ℝ} {share : ℝ} (moves : Moves config p s r centrality dx dl share s')

include program inside moves

/-- Where the products are balanced the product of the directions takes back no more than the target takes off. -/
theorem QuadraticProgram.product_le (growing : 1 < config.mu)
    (balanced : r.Balanced p.constraints.count (1 / (config.mu * (3 * config.mu - 2)))) :
    -(dl.vec p.constraints.count ⬝ᵥ (J.mat p.constraints.count n).mulVec (dx.vec n)) ≤
      r.eta * (1 - 1 / config.mu) := by
  have eta := inside.eta_pos r
  have constrained : (0 : ℝ) < p.constraints.count := Nat.cast_pos.mpr (Nat.pos_of_ne_zero inside.constrained)
  have first : 0 < config.mu := one_pos.trans growing
  have second : 0 < 3 * config.mu - 2 := by linarith
  have floor : 0 < 1 / (config.mu * (3 * config.mu - 2)) * (r.eta / p.constraints.count) :=
    mul_pos (one_div_pos.mpr (mul_pos first second)) (div_pos eta constrained)
  have bound := dotProduct_le_of_floor (program.centred inside moves) floor balanced
  rw [← inside.eta_eq program r, Reading.target, inside.count] at bound
  set k : ℝ := (p.constraints.count : ℝ)
  have total : k * ((1 / (config.mu * k / r.eta)) ^ 2 / (1 / (config.mu * (3 * config.mu - 2)) * (r.eta / k)) -
      2 * (1 / (config.mu * k / r.eta))) + r.eta = 4 * (r.eta * (1 - 1 / config.mu)) := by
    field_simp
    ring
  linarith

end

/-- One product is the whole gap. -/
theorem Interior.balanced_of_one (inside : Interior p.constraints n s) (program : QuadraticProgram p H J n)
    (r : Reading p s) (one : p.constraints.count = 1) {κ : ℝ} (part : κ ≤ 1) :
    r.Balanced p.constraints.count κ := by
  have eta := inside.eta_pos r
  have gap := inside.eta_eq program r
  intro i
  have whole : r.values.vec p.constraints.count ⬝ᵥ s.multipliers.vec p.constraints.count =
      r.values.vec p.constraints.count i * s.multipliers.vec p.constraints.count i := by
    have alone : ∀ j : Fin p.constraints.count, j = i := fun j => Fin.ext (by omega)
    exact Finset.sum_eq_single i (fun j _ other => absurd (alone j) other) (by simp)
  rw [whole] at gap
  rw [← gap, one, Nat.cast_one, div_one]
  exact mul_le_of_le_one_left eta.le part

/-- A share of the way makes the gap smaller where the product of the directions takes back less of it than the
target takes off. -/
theorem gap_lt_iff {eta share rate product : ℝ} (positive : 0 < share) :
    eta * (1 - share * rate) - share ^ 2 * product < eta ↔ share * -product < eta * rate := by
  have difference : eta * (1 - share * rate) - share ^ 2 * product - eta =
      share * (share * -product - eta * rate) := by
    ring
  rw [← sub_neg, difference, ← smul_eq_mul share (_ - _), smul_neg_iff_of_pos_left positive, sub_neg]

/-- On a quadratic program the gap becomes smaller with a step that moves exactly where the product of both
directions, times the share, takes back less than the target takes off; so it does where no product of a value
and its multiplier is too far below their mean, and always with one constraint. -/
theorem gap_falls_iff (config : Config ℝ) (p : Constrained ℝ) (H J : Table ℝ) (x : Coords ℝ) (k : Nat)
    (s s' : MultiplierState ℝ) (valid : schema.validate config = .ok ()) (growing : 1 < config.mu)
    (program : QuadraticProgram p H J x.size) (reached : method.after config p x () k = .ok (s, ()))
    (made : (step config p s).outcome = .ok s') (unfinished : s'.finished = false) :
    let n := x.size
    let m := p.constraints.count
    ∃ (r : Reading p s) (centrality dx dl : Coords ℝ) (share after : ℝ),
      Moves config p s r centrality dx dl share s' ∧ 0 ≤ share ∧ share < 1 ∧
      gapMeasure.value p s = .ok r.eta ∧ gapMeasure.value p s' = .ok after ∧
      (share = 0 → after = r.eta) ∧
      (0 < share →
        (after < r.eta ↔
          share * -(dl.vec m ⬝ᵥ (J.mat m n).mulVec (dx.vec n)) < r.eta * (1 - 1 / config.mu)) ∧
        (r.Balanced m (1 / (config.mu * (3 * config.mu - 2))) → after < r.eta) ∧
        (m = 1 → after < r.eta)) := by
  intro n m
  have inside := interior_of_after rfl valid reached
  obtain ⟨r, centrality, dx, dl, share, moves⟩ := moves_of_unfinished made unfinished
  obtain ⟨next, _⟩ := inside.step valid made
  obtain ⟨least, most⟩ := inside.share_bounds valid moves
  have eta := inside.eta_pos r
  have first : 0 < config.mu := one_pos.trans growing
  have rate : 0 < 1 - 1 / config.mu := sub_pos.mpr ((div_lt_one first).mpr growing)
  refine ⟨r, centrality, dx, dl, share, _, moves, least, most, r.gap_measured,
    program.gap_next inside moves first next, ?_, fun positive => ?_⟩
  · rintro rfl
    ring
  have balanced : r.Balanced m (1 / (config.mu * (3 * config.mu - 2))) →
      share * -(dl.vec m ⬝ᵥ (J.mat m n).mulVec (dx.vec n)) < r.eta * (1 - 1 / config.mu) := fun balanced => by
    calc share * -(dl.vec m ⬝ᵥ (J.mat m n).mulVec (dx.vec n))
        ≤ share * (r.eta * (1 - 1 / config.mu)) :=
          mul_le_mul_of_nonneg_left (program.product_le inside moves growing balanced) least
      _ < r.eta * (1 - 1 / config.mu) := mul_lt_of_lt_one_left (mul_pos eta rate) most
  refine ⟨gap_lt_iff positive, fun each => (gap_lt_iff positive).mpr (balanced each), fun one =>
    (gap_lt_iff positive).mpr (balanced (inside.balanced_of_one program r one ?_))⟩
  refine div_le_one_of_le₀ ?_ (mul_nonneg first.le (by linarith))
  nlinarith

/-- Rows of opposite sign. -/
def opposite : Table ℝ :=
  .ofFn 2 1 fun i _ => if i.val = 0 then 1 else -1

/-- Five eighths of the square between two bounds, of which one is close to the origin. -/
noncomputable def cramped : Constrained ℝ :=
  ⟨.quadratic ((Table.identity 1).scale 1.25) (.zeros 1),
    .linear opposite (.ofFn fun i : Fin 2 => if i.val = 0 then 4.0 else 0.5)⟩

/-- The gap is meant to shrink by no more than a ninth. -/
noncomputable def cautious : Config ℝ :=
  ⟨1.125, 0.1, 0.1, 0.1, 0.5⟩

theorem cautious_valid : schema.validate cautious = .ok () :=
  validate_eq_ok.mpr (by norm_num [cautious])

theorem opposite_form : opposite.height = 2 ∧ opposite.width = 1 ∧
    opposite.mat 2 1 = Matrix.of fun i _ => if i.val = 0 then 1 else -1 :=
  ⟨Table.height_ofFn _ _ _, rfl, Table.mat_ofFn _⟩

theorem cramped_count : cramped.constraints.count = 2 :=
  Coords.size_ofFn _

theorem cramped_program : QuadraticProgram cramped ((Table.identity 1).scale 1.25) opposite 1 := by
  obtain ⟨high, wide, _⟩ := Table.scale_identity 1 1.25
  obtain ⟨tall, narrow, _⟩ := opposite_form
  have bounds : (Coords.ofFn fun i : Fin 2 => if i.val = 0 then (4.0 : ℝ) else 0.5).size = 2 := Coords.size_ofFn _
  exact ⟨Objective.quadratic_conforming high wide (Coords.size_constant _ _),
    Constraints.linear_conforming (tall.trans bounds.symm) narrow, Objective.quadratic_constantHessian _ high wide,
    Constraints.linear_affine (tall.trans bounds.symm) narrow⟩

theorem cramped_values {x values : Coords ℝ} (made : cramped.constraints.values x = .ok values) :
    values.vec 2 0 = x.vec 1 0 - 4 ∧ values.vec 2 1 = -x.vec 1 0 - 1 / 2 := by
  obtain ⟨tall, narrow, form⟩ := opposite_form
  rw [Constraints.linear_values tall narrow made, form]
  constructor <;> norm_num [Matrix.mulVec, dotProduct]

theorem cramped_strict {x : Coords ℝ} (size : x.size = 1) (low : -(1 / 2) < x.vec 1 0) (high : x.vec 1 0 < 4) :
    cramped.constraints.strictlyFeasible x = .ok true := by
  obtain ⟨values, atValues, count⟩ := cramped_program.constraints.values x size
  obtain ⟨first, second⟩ := cramped_values atValues
  have two : values.size = 2 := count.trans cramped_count
  refine strictlyFeasible_eq_ok.mpr ⟨values, atValues, (Coords.forall_mem_iff two).mpr ?_⟩
  refine Fin.forall_fin_two.mpr ⟨?_, ?_⟩
  · rw [first]
    linarith
  · rw [second]
    linarith

theorem cramped_started {config : Config ℝ} : method.after config cramped (.zeros 1) () 0 =
    .ok (⟨.zeros 1, .constant 2 1, false⟩, ()) := by
  have strict := cramped_strict (x := .zeros 1) (Coords.size_constant _ _) (by norm_num) (by norm_num)
  have started := start_of_strict (cramped_count ▸ (by decide)) strict
  rw [cramped_count] at started
  exact Method.after_zero_eq_ok.mpr ⟨started, rfl⟩

theorem cramped_inside : Interior cramped.constraints 1 ⟨.zeros 1, .constant 2 1, false⟩ :=
  interior_of_after (Coords.size_constant _ _) cautious_valid cramped_started

theorem cramped_read (r : Reading cramped ⟨.zeros 1, .constant 2 1, false⟩) :
    r.values.vec 2 0 = -4 ∧ r.values.vec 2 1 = -(1 / 2) ∧ r.eta = 9 / 2 ∧ r.dual.vec 1 = 0 := by
  obtain ⟨first, second⟩ := cramped_values r.values_eq
  rw [Coords.vec_zeros] at first second
  norm_num at first second
  refine ⟨first, by linarith, ?_, ?_⟩
  · rw [cramped_inside.eta_eq cramped_program r, cramped_count, dotProduct, Fin.sum_univ_two, Coords.vec_constant,
      first, second]
    norm_num
  · obtain ⟨high, wide, _⟩ := Table.scale_identity 1 1.25
    obtain ⟨tall, narrow, form⟩ := opposite_form
    have jacobian : opposite = r.jacobian := Except.ok.inj r.jacobian_eq
    rw [(vec_dualResidual (jacobian ▸ tall) (jacobian ▸ narrow) r.dual_eq).2,
      Objective.quadratic_gradients high wide r.gradient_eq, sub_self, Matrix.mulVec_zero, zero_add, ← jacobian,
      form]
    funext j
    norm_num [Matrix.vecMul, dotProduct]

/-- The Newton system at the origin. -/
theorem cramped_system {c : Fin 2 → ℝ} (first : c 0 = -4) (second : c 1 = -(1 / 2)) (z : Fin 1 → ℝ)
    (y : Fin 2 → ℝ) :
    let K := (((Table.identity 1).scale 1.25 : Table ℝ).mat 1 1)
    let A := Matrix.diagonal (Coords.vec (.constant 2 1) 2) * opposite.mat 2 1
    (K.mulVec z + (opposite.mat 2 1).transpose.mulVec y) 0 = 5 / 4 * z 0 + y 0 - y 1 ∧
      (-A.mulVec z - (Matrix.diagonal c).mulVec y) 0 = -z 0 + 4 * y 0 ∧
      (-A.mulVec z - (Matrix.diagonal c).mulVec y) 1 = z 0 + y 1 / 2 := by
  intro K A
  simp only [K, A]
  rw [(Table.scale_identity 1 1.25).2.2, opposite_form.2.2, ← Matrix.mulVec_mulVec, Pi.sub_apply, Pi.sub_apply,
    Pi.neg_apply, Pi.neg_apply, Matrix.mulVec_diagonal, Matrix.mulVec_diagonal, Matrix.mulVec_diagonal,
    Matrix.mulVec_diagonal, first, second]
  refine ⟨?_, ?_, ?_⟩
  · simp [Matrix.mulVec, dotProduct, Fin.sum_univ_two]
    ring
  · simp [Matrix.mulVec, dotProduct]
  · simp [Matrix.mulVec, dotProduct]
    ring

theorem cramped_made : ∃ s', (step cautious cramped ⟨.zeros 1, .constant 2 1, false⟩).outcome = .ok s' ∧
    s'.finished = false := by
  obtain ⟨r⟩ := cramped_program.exists_reading cramped_inside
  obtain ⟨first, second, eta, _⟩ := cramped_read r
  refine cramped_program.step_ok cramped_inside r (fun met => ?_) ?_
  · have small := met.2
    rw [eta] at small
    norm_num [cautious] at small
  · rw [cramped_count]
    intro z y one
    by_contra failed
    push Not at failed
    obtain ⟨upper, lower⟩ := failed
    obtain ⟨top, left, right⟩ := cramped_system first second z y
    have above := upper 0
    have here := lower 0
    have below := lower 1
    rw [top, abs_lt] at above
    rw [left, abs_lt] at here
    rw [right, abs_lt] at below
    norm_num [Elimination.pivotFloor] at above here below
    rw [Fin.exists_fin_one, Fin.exists_fin_two] at one
    rcases one with one | one | one <;> linarith

/-- The length of the residual at any point and any multipliers. -/
theorem cramped_residual {x l merit : Coords ℝ} {t : ℝ} (size : x.size = 1) (count : l.size = 2)
    (made : residual cramped x l t = .ok merit) : merit.norm =
      √((5 / 4 * x.vec 1 0 + l.vec 2 0 - l.vec 2 1) ^ 2 + ((l.vec 2 0 * (4 - x.vec 1 0) - 1 / t) ^ 2 +
        (l.vec 2 1 * (x.vec 1 0 + 1 / 2) - 1 / t) ^ 2)) := by
  obtain ⟨high, wide, steep⟩ := Table.scale_identity 1 1.25
  obtain ⟨tall, narrow, form⟩ := opposite_form
  obtain ⟨values, gradient, J, atValues, atGradient, atJacobian, length⟩ :=
    norm_residual cramped_program.objective cramped_program.constraints cramped_count size count made
  obtain rfl : opposite = J := Except.ok.inj atJacobian
  obtain ⟨first, second⟩ := cramped_values atValues
  rw [length, dotProduct, dotProduct, Fin.sum_univ_two, first, second,
    Objective.quadratic_gradients high wide atGradient, steep, form]
  simp [Matrix.vecMul, Matrix.mulVec, dotProduct, Fin.sum_univ_two]
  ring_nf

section

variable {r : Reading cramped ⟨.zeros 1, .constant 2 1, false⟩} {centrality dx dl : Coords ℝ} {share : ℝ}
  (moves : Moves cautious cramped ⟨.zeros 1, .constant 2 1, false⟩ r centrality dx dl share s')

include moves

theorem cramped_directions : centrality.vec 2 0 = 2 ∧ centrality.vec 2 1 = -(3 / 2) ∧ dx.vec 1 0 = 1 ∧
    dl.vec 2 0 = -(1 / 4) ∧ dl.vec 2 1 = 1 := by
  obtain ⟨first, second, eta, flat⟩ := cramped_read r
  have target : r.target cautious = 1 / 2 := by
    rw [Reading.target, eta, Coords.size_constant]
    norm_num [cautious]
  have left := vec_centralityResidual (m := 2) (Coords.size_constant _ _) moves.centrality_eq 0
  have right := vec_centralityResidual (m := 2) (Coords.size_constant _ _) moves.centrality_eq 1
  rw [target, Coords.vec_constant] at left right
  rw [first] at left
  rw [second] at right
  norm_num at left right
  have solved := cramped_program.solves cramped_inside moves
  rw [cramped_count, flat, neg_zero] at solved
  obtain ⟨upper, lower⟩ := solved
  obtain ⟨above, here, below⟩ := cramped_system first second (dx.vec 1) (dl.vec 2)
  rw [upper] at above
  rw [lower] at here below
  simp only [Pi.zero_apply, Pi.neg_apply, left, right] at above here below
  refine ⟨left, by linarith, by linarith, by linarith, by linarith⟩

/-- Almost the whole way the residual becomes much smaller. -/
theorem cramped_qualifies : Qualifies cautious cramped ⟨.zeros 1, .constant 2 1, false⟩ dx dl
    (r.dual.append centrality).norm (r.target cautious) 0.99 := by
  obtain ⟨_, _, across, left, right⟩ := cramped_directions moves
  obtain ⟨_, _, eta, _⟩ := cramped_read r
  have origin : (Coords.zeros 1 : Coords ℝ).size = 1 := Coords.size_constant _ _
  have ones : (Coords.constant 2 1 : Coords ℝ).size = 2 := Coords.size_constant _ _
  have target : 1 / r.target cautious = 2 := by
    rw [Reading.target, eta, Coords.size_constant]
    norm_num [cautious]
  have start : (r.dual.append centrality).norm = 5 / 2 := by
    rw [cramped_residual origin ones (r.residual_eq moves.centrality_eq), target, Coords.vec_zeros,
      Coords.vec_constant]
    refine (congrArg Real.sqrt ?_).trans (Real.sqrt_sq (by norm_num : (0 : ℝ) ≤ 5 / 2))
    norm_num
  obtain ⟨x, atPoint, size⟩ :=
    Coords.advance_ok origin ((Coords.size_combine moves.point_eq).1.symm.trans origin) 0.99
  obtain ⟨l, atMultipliers, count⟩ :=
    Coords.advance_ok ones ((Coords.size_combine moves.multipliers_eq).1.symm.trans ones) 0.99
  have place : x.vec 1 0 = 0.99 := by
    rw [Coords.vec_advance atPoint]
    simp [across]
  have first : l.vec 2 0 = 0.7525 := by
    rw [Coords.vec_advance atMultipliers]
    norm_num [left]
  have second : l.vec 2 1 = 1.99 := by
    rw [Coords.vec_advance atMultipliers]
    norm_num [right]
  obtain ⟨merit, atMerit⟩ := residual_ok cramped_program.objective cramped_program.constraints size
    (count.trans cramped_count.symm) (r.target cautious)
  refine ⟨x, l, merit, atPoint, cramped_strict size ?_ ?_, atMultipliers, atMerit, ?_⟩
  · rw [place]
    norm_num
  · rw [place]
    norm_num
  · rw [cramped_residual size count atMerit, start, target, place, first, second]
    exact Real.sqrt_le_iff.mpr ⟨by norm_num [cautious], by norm_num [cautious]⟩

theorem cramped_share : share = 0.99 := by
  obtain ⟨_, _, _, left, right⟩ := cramped_directions moves
  have ones : (Coords.constant 2 1 : Coords ℝ).size = 2 := Coords.size_constant _ _
  have dlSize : dl.size = 2 := (Coords.size_combine moves.multipliers_eq).1.symm.trans ones
  have largest : maxDualStep (.constant 2 1) dl = 1 := maxDualStep_eq_one ones dlSize <| by
    rw [Coords.vec_constant, Fin.forall_fin_two, left, right]
    norm_num
  have whole : 0.99 * maxDualStep (.constant 2 1) dl = 0.99 := by rw [largest, mul_one]
  exact (moves.share_of_first (whole.symm ▸ cramped_qualifies moves)).trans whole

end

/-- What decides the step from the origin: the product of the directions takes back more than the target takes
off. -/
theorem gap_falls_iff_cramped : ∃ (s' : MultiplierState ℝ) (r : Reading cramped ⟨.zeros 1, .constant 2 1, false⟩)
    (centrality dx dl : Coords ℝ) (after : ℝ),
    (step cautious cramped ⟨.zeros 1, .constant 2 1, false⟩).outcome = .ok s' ∧ s'.finished = false ∧
      Moves cautious cramped ⟨.zeros 1, .constant 2 1, false⟩ r centrality dx dl 0.99 s' ∧ r.eta = 9 / 2 ∧
      dl.vec 2 ⬝ᵥ (opposite.mat 2 1).mulVec (dx.vec 1) = -1.25 ∧ gapMeasure.value cramped s' = .ok after ∧
      (after < 9 / 2 ↔ (0.99 : ℝ) * 1.25 < 9 / 2 * (1 - 1 / cautious.mu)) ∧ 9 / 2 ≤ after := by
  obtain ⟨s', made, unfinished⟩ := cramped_made
  obtain ⟨r, centrality, dx, dl, share, after, moves, _, _, _, atNext, _, falls⟩ :=
    gap_falls_iff cautious cramped ((Table.identity 1).scale 1.25) opposite (.zeros 1) 0 _ s' cautious_valid
      (by norm_num [cautious]) cramped_program cramped_started made unfinished
  obtain ⟨_, _, eta, _⟩ := cramped_read r
  obtain ⟨_, _, across, left, right⟩ := cramped_directions moves
  obtain rfl := cramped_share moves
  have product : dl.vec 2 ⬝ᵥ (opposite.mat 2 1).mulVec (dx.vec 1) = -1.25 := by
    rw [opposite_form.2.2]
    norm_num [Matrix.mulVec, dotProduct, Fin.sum_univ_two, across, left, right]
  obtain ⟨criterion, _⟩ := falls (by norm_num)
  rw [cramped_count] at criterion
  change after < r.eta ↔ 0.99 * -(dl.vec 2 ⬝ᵥ (opposite.mat 2 1).mulVec (dx.vec 1)) < _ at criterion
  rw [eta, product, neg_neg] at criterion
  refine ⟨s', r, centrality, dx, dl, after, made, unfinished, moves, eta, product, atNext, criterion, ?_⟩
  refine not_lt.mp fun less => absurd (criterion.mp less) ?_
  norm_num [cautious]

/-- From the origin the method takes almost the whole step and shortens the residual, but the gap becomes
greater. -/
theorem gap_rises_cramped : (((Table.identity 1).scale 1.25 : Table ℝ).mat 1 1).PosDef ∧
    QuadraticProgram cramped ((Table.identity 1).scale 1.25) opposite 1 ∧
    schema.validate cautious = .ok () ∧ 1 < cautious.mu ∧
    ∃ (s s' : MultiplierState ℝ) (r : Reading cramped s) (centrality dx dl : Coords ℝ) (share before after : ℝ),
      method.after cautious cramped (.zeros 1) () 0 = .ok (s, ()) ∧
      method.after cautious cramped (.zeros 1) () 1 = .ok (s', ()) ∧ s'.finished = false ∧
      Moves cautious cramped s r centrality dx dl share s' ∧ 0 < share ∧
      gapMeasure.value cramped s = .ok before ∧ gapMeasure.value cramped s' = .ok after ∧ before < after := by
  refine ⟨?_, cramped_program, cautious_valid, by norm_num [cautious], ?_⟩
  · rw [(Table.scale_identity 1 1.25).2.2]
    exact Matrix.PosDef.one.smul (by norm_num)
  obtain ⟨s', made, unfinished⟩ := cramped_made
  obtain ⟨r, centrality, dx, dl, share, moves⟩ := moves_of_unfinished made unfinished
  obtain ⟨_, _, eta, _⟩ := cramped_read r
  obtain ⟨_, _, across, left, right⟩ := cramped_directions moves
  obtain ⟨next, _⟩ := cramped_inside.step cautious_valid made
  have last := cramped_program.gap_next cramped_inside moves (by norm_num [cautious]) next
  rw [cramped_count, opposite_form.2.2, eta, cramped_share moves] at last
  refine ⟨_, s', r, centrality, dx, dl, share, _, _, cramped_started,
    Method.after_succ_eq_ok.mpr ⟨_, (), cramped_started, made, rfl⟩, unfinished, moves, ?_, r.gap_measured, last,
    ?_⟩
  · rw [cramped_share moves]
    norm_num
  · rw [eta]
    norm_num [Matrix.mulVec, dotProduct, Fin.sum_univ_two, across, left, right, cautious]

end Downhill.InteriorPoint
