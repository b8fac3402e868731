import Downhill.Proofs.GradientProjection.ActiveSet
import Downhill.Proofs.GradientProjection.Feasibility

namespace Downhill.GradientProjection

section

variable {config : Config ℝ} {p : Constrained ℝ} {s s' : State ℝ} {n : Nat}

theorem Reading.eq (r r' : Reading config p s) : r = r' := by
  obtain ⟨values, jacobian, active, gradient, d, l, atValues, atJacobian, atActive, atGradient,
    atDirection⟩ := r
  obtain ⟨values', jacobian', active', gradient', d', l', atValues', atJacobian', atActive', atGradient',
    atDirection'⟩ := r'
  obtain rfl := Except.ok.inj (atValues.symm.trans atValues')
  obtain rfl := Except.ok.inj (atJacobian.symm.trans atJacobian')
  obtain rfl := Except.ok.inj (atActive.symm.trans atActive')
  obtain rfl := Except.ok.inj (atGradient.symm.trans atGradient')
  obtain ⟨rfl, rfl⟩ := Prod.mk.inj (Except.ok.inj (atDirection.symm.trans atDirection'))
  rfl

/-- A state that is marked as finished has nothing left to do at its own point, and keeps the
multipliers found there. -/
def Certified (config : Config ℝ) (p : Constrained ℝ) (s : State ℝ) : Prop :=
  s.finished = true → ∃ r : Reading config p s,
    r.Settled ∧ s.multipliers = r.multipliers ∧ s.active = r.active.height

theorem certified_step (certified : Certified config p s) (made : (step config p s).outcome = .ok s') :
    Certified config p s' := by
  intro finished
  obtain ⟨r, ⟨settled, rfl⟩ | ⟨unsettled, rows, d, multipliers, t, moves⟩⟩ := step_cases made
  · exact ⟨⟨r.values, r.jacobian, r.active, r.gradient, r.d, r.multipliers, r.values_eq, r.jacobian_eq,
      r.active_eq, r.gradient_eq, r.direction_eq⟩, settled, rfl, rfl⟩
  · obtain ⟨r', settled, _⟩ := certified (moves.finished_eq.symm.trans finished)
    exact absurd (r.eq r' ▸ settled) unsettled

theorem size_step (dimension : s.point.size = n) (made : (step config p s).outcome = .ok s') :
    s'.point.size = n := by
  obtain ⟨r, ⟨_, rfl⟩ | ⟨_, rows, d, multipliers, t, moves⟩⟩ := step_cases made
  · exact dimension
  · exact (Coords.size_combine moves.point_eq).2.trans dimension

/-- At a state with nothing left to do no feasible point is much better. -/
theorem Reading.Settled.nearly_optimal {r : Reading config p s} (settled : r.Settled)
    (dimension : s.point.size = n) (objective : p.objective.Conforming n)
    (constraints : p.constraints.Conforming n) (convex : p.objective.Convex n)
    (convexConstraints : p.constraints.Convex n) {y e : Coords ℝ} {fx fy : ℝ} (size : y.size = n)
    (feasible : p.constraints.feasible y = .ok true) (here : p.objective.value s.point = .ok fx)
    (there : p.objective.value y = .ok fy) (apart : s.point.sub y = .ok e) :
    fx ≤ fy + config.delta * e.norm + config.eps * ∑ k, r.multipliers.vec r.active.height k := by
  have gradientSize := objective.size_gradient dimension r.gradient_eq
  obtain ⟨high, wide⟩ := constraints.shape_jacobian dimension r.jacobian_eq
  obtain ⟨across, place, _, members, rows⟩ := activeRows_eq_ok
    (constraints.size_values dimension r.values_eq) high wide r.active_eq
  obtain ⟨count, dSize, balance⟩ := vec_direction gradientSize across r.direction_eq
  obtain ⟨bounds, atBounds, within⟩ := Constraints.feasible_eq_ok.mp feasible
  have boundsSize := constraints.size_values size atBounds
  have nonneg := (Coords.forall_mem_iff count).mp settled.2
  have below := (Coords.forall_mem_iff boundsSize).mp within
  have back : y.vec n - s.point.vec n = -e.vec n := by
    rw [Coords.vec_sub apart, neg_sub]
  have slope := convex s.point y fx fy r.gradient dimension size here there r.gradient_eq
  have tangent := convexConstraints s.point y r.values bounds r.jacobian dimension size
    r.values_eq atBounds r.jacobian_eq
  rw [back] at slope tangent
  -- The active constraints rise by no more than they lie below zero, which is less than the tolerance.
  have rise := weighted_rise_le nonneg (J := r.active.mat r.active.height n) (d := -e.vec n)
    (v := fun k => r.values.vec _ (place k)) (w := fun k => bounds.vec _ (place k))
    (fun k => by
      have row := tangent (place k)
      rwa [Matrix.mulVec, ← rows] at row)
    (fun k => below (place k))
  have slack : -((fun k => r.values.vec _ (place k)) ⬝ᵥ r.multipliers.vec r.active.height) ≤
      config.eps * ∑ k, r.multipliers.vec r.active.height k := by
    rw [dotProduct, ← Finset.sum_neg_distrib, Finset.mul_sum]
    refine Finset.sum_le_sum fun k _ => ?_
    have near : -config.eps < r.values.vec _ (place k) := (members (place k)).mp ⟨k, rfl⟩
    nlinarith [nonneg k]
  have reach := Coords.dotProduct_le_norms (x := r.d.neg) (y := e) (n := n)
    ((Coords.size_map _ _).trans dSize).le ((Coords.size_combine apart).2.trans dimension).le
  have residual : r.d.neg.vec n ⬝ᵥ e.vec n ≤ config.delta * e.norm := by
    refine reach.trans (mul_le_mul_of_nonneg_right ?_ (Real.sqrt_nonneg _))
    rw [Coords.norm_neg]
    exact settled.1.le
  rw [Coords.vec_neg, balance, add_dotProduct] at residual
  rw [dotProduct_neg] at slope rise
  linarith

end

/-- The multipliers of a finished state belong, in order, to the constraints with values above minus `eps`,
and none of them is negative. Every feasible point has an objective lower by at most `delta` times the
distance to it and `eps` times the sum of the multipliers. -/
theorem stop_certified (config : Config ℝ) (p : Constrained ℝ) (x : Coords ℝ) (k : Nat) (s : State ℝ)
    (objective : p.objective.Conforming x.size) (constraints : p.constraints.Conforming x.size)
    (convex : p.objective.Convex x.size) (convexConstraints : p.constraints.Convex x.size)
    (reached : method.after config p x () k = .ok (s, ())) (finished : s.finished = true) :
    ∃ (values gradient residual : Coords ℝ) (J : Table ℝ) (fx : ℝ)
      (place : Fin s.active → Fin p.constraints.count),
      p.constraints.values s.point = .ok values ∧ p.constraints.jacobian s.point = .ok J ∧
      p.objective.gradient s.point = .ok gradient ∧ p.objective.value s.point = .ok fx ∧
      StrictMono place ∧ (∀ i, i ∈ Set.range place ↔ -config.eps < values.vec p.constraints.count i) ∧
      s.multipliers.size = s.active ∧ (∀ l ∈ s.multipliers.toList, 0 ≤ l) ∧
      residual.size = x.size ∧
      residual.vec x.size = gradient.vec x.size +
        ∑ k, s.multipliers.vec s.active k • J.mat p.constraints.count x.size (place k) ∧
      residual.norm < config.delta ∧
      ∀ y, y.size = x.size → p.constraints.feasible y = .ok true →
        ∃ fy e, p.objective.value y = .ok fy ∧ s.point.sub y = .ok e ∧
          fx ≤ fy + config.delta * e.norm + config.eps * ∑ k, s.multipliers.vec s.active k := by
  obtain ⟨dimension, certified⟩ := Method.after_invariant (m := method)
    (fun s started => by
      obtain rfl := start_eq_ok.mp started
      exact ⟨rfl, nofun⟩)
    (fun _ s s' (holds : s.point.size = x.size ∧ Certified config p s) made =>
      ⟨size_step holds.1 made, certified_step holds.2 made⟩) reached
  obtain ⟨r, settled, same, count⟩ := certified finished
  have gradientSize := objective.size_gradient dimension r.gradient_eq
  obtain ⟨high, wide⟩ := constraints.shape_jacobian dimension r.jacobian_eq
  obtain ⟨across, place, increasing, members, rows⟩ := activeRows_eq_ok
    (constraints.size_values dimension r.values_eq) high wide r.active_eq
  obtain ⟨size, dSize, balance⟩ := vec_direction gradientSize across r.direction_eq
  obtain ⟨fx, here⟩ := objective.value s.point dimension
  rw [same, count]
  refine ⟨r.values, r.gradient, r.d.neg, r.jacobian, fx, place, r.values_eq, r.jacobian_eq, r.gradient_eq,
    here, increasing, members, size, settled.2, (Coords.size_map _ _).trans dSize, ?_,
    (Coords.norm_neg r.d).trans_lt settled.1, fun y fits feasible => ?_⟩
  · rw [Coords.vec_neg, balance, Matrix.vecMul_eq_sum]
    simp only [rows]
  · obtain ⟨fy, there⟩ := objective.value y fits
    obtain ⟨e, apart, _⟩ := Coords.sub_ok dimension fits
    exact ⟨fy, e, there, apart, settled.nearly_optimal dimension objective constraints convex
      convexConstraints fits feasible here there apart⟩

theorem activeRows_capped {values : Coords ℝ} {active : Table ℝ} (size : values.size = 1)
    (zero : values.vec 1 = 0) (made : activeRows modest values (.identity 1) = .ok active) :
    active.height = 1 ∧ active.width = 1 ∧ active.mat 1 1 = 1 := by
  obtain ⟨wide, place, increasing, members, rows⟩ := activeRows_eq_ok size (Table.height_identity 1)
    (Table.width_identity 1) made
  have most : active.height ≤ 1 := by
    simpa using Fintype.card_le_of_injective place increasing.injective
  have bound : (0 : Fin 1) ∈ Set.range place := by
    rw [members, zero]
    norm_num [modest]
  obtain ⟨k, atZero⟩ := bound
  have high : active.height = 1 := le_antisymm most (Nat.zero_lt_of_lt k.isLt)
  refine ⟨high, wide, ?_⟩
  ext i j
  obtain rfl := Fin.eq_zero i
  have row : active.mat active.height 1 ⟨0, high ▸ Nat.one_pos⟩ = _ := rows _
  rw [Table.mat_identity, Fin.eq_zero (place _)] at row
  exact congrFun row j

/-- One row that is a unit vector takes all of a slope, with the reverse of it as multiplier. -/
theorem direction_capped {gradient : Coords ℝ} {active : Table ℝ} {w : ℝ} (size : gradient.size = 1)
    (slope : gradient.vec 1 = fun _ => -w) (high : active.height = 1) (wide : active.width = 1)
    (one : active.mat 1 1 = 1) : ∃ d multipliers,
      (direction gradient active).outcome = .ok (d, multipliers) ∧ d.size = 1 ∧ d.vec 1 = 0 ∧
      multipliers.size = 1 ∧ multipliers.vec 1 = fun _ => w := by
  obtain ⟨d, l, made⟩ := direction_ok size high wide one_ne_zero fun gram tall broad entries =>
    Table.eliminate_of_one tall broad (by rw [entries, one, Matrix.transpose_one, mul_one])
  obtain ⟨count, dSize, balance⟩ := vec_direction size wide made
  obtain ⟨_, still⟩ := mulVec_direction size wide made
  rw [high, one, Matrix.one_mulVec] at still
  rw [high, one, Matrix.vecMul_one, slope, still, neg_zero] at balance
  refine ⟨d, l, made, dSize, still, count.trans high, funext fun i => ?_⟩
  have entry := congrFun balance i
  rw [Pi.zero_apply, Pi.add_apply] at entry
  linarith

theorem settled_of_corner (s : State ℝ) (corner : s.point = .constant 1 1) :
    ∃ r : Reading modest capped s, r.Settled := by
  have fits : s.point.size = 1 := corner ▸ Coords.size_constant _ _
  obtain ⟨values, atValues, _⟩ := capped_constraints.values _ fits
  obtain ⟨gradient, atGradient, size⟩ := capped_objective.gradient _ fits
  obtain ⟨valuesSize, atCap⟩ := capped_values fits atValues
  obtain ⟨active, atActive⟩ := activeRows_ok modest (valuesSize.trans (Table.height_identity 1).symm)
  have zero : values.vec 1 = 0 := by
    rw [atCap, corner]
    funext i
    simp
  have slope : gradient.vec 1 = fun _ => -1 := by
    rw [capped_gradients atGradient, corner]
    funext i
    norm_num
  obtain ⟨high, wide, one⟩ := activeRows_capped valuesSize zero atActive
  obtain ⟨d, multipliers, atDirection, dSize, still, count, weight⟩ :=
    direction_capped size slope high wide one
  refine ⟨⟨values, .identity 1, active, gradient, d, multipliers, atValues, rfl, atActive, atGradient,
    atDirection⟩, ?_, (Coords.forall_mem_iff count).mpr fun i => ?_⟩
  · change d.norm < modest.delta
    rw [Coords.norm_eq dSize.le, still, dotProduct_zero, Real.sqrt_zero]
    norm_num [modest]
  · change 0 ≤ multipliers.vec 1 i
    rw [weight]
    exact zero_le_one

/-- A step at the end of the half-line finds it to be the lowest point but for the tolerances. -/
theorem stop_certified_capped : ∃ s fx, method.after modest capped (.constant 1 1) () 1 = .ok (s, ()) ∧
    s.finished = true ∧ capped.objective.value s.point = .ok fx ∧
    ∀ y, y.size = 1 → capped.constraints.feasible y = .ok true →
      ∃ fy e, capped.objective.value y = .ok fy ∧ s.point.sub y = .ok e ∧
        fx ≤ fy + 0.1 * e.norm + 0.1 * ∑ k, s.multipliers.vec s.active k := by
  let s : State ℝ := ⟨.constant 1 1, .zeros 0, 0, false⟩
  obtain ⟨r, settled⟩ := settled_of_corner s rfl
  have started : method.after modest capped (.constant 1 1) () 0 = .ok (s, ()) :=
    Method.after_zero_eq_ok.mpr ⟨start_eq_ok.mpr rfl, rfl⟩
  let s' : State ℝ := { s with multipliers := r.multipliers, active := r.active.height, finished := true }
  have reached : method.after modest capped (.constant 1 1) () 1 = .ok (s', ()) :=
    Method.after_succ_eq_ok.mpr ⟨s, (), started, step_of_settled r settled, rfl⟩
  have convex : capped.objective.Convex 1 := Objective.quadratic_convex (Table.height_identity 1)
    (Table.width_identity 1) (Table.posSemidef_identity 1)
  have convexConstraints : capped.constraints.Convex 1 := Constraints.linear_convex
    ((Table.height_identity 1).trans (Coords.size_constant 1 _).symm) (Table.width_identity 1)
  obtain ⟨_, _, _, _, fx, _, _, _, _, here, _, _, _, _, _, _, _, near⟩ := stop_certified modest capped
    (.constant 1 1) 1 s' capped_objective capped_constraints convex convexConstraints reached rfl
  exact ⟨s', fx, reached, rfl, here, near⟩

end Downhill.GradientProjection
