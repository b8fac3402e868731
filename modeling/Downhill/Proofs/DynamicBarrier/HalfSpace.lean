import Downhill.Proofs.DynamicBarrier.Promise

namespace Downhill

/-- The one constraint that the product with `a` be at most `b`, with the gradient `a` everywhere. -/
structure Constraints.HalfSpace (c : Constraints ℝ) (a : Coords ℝ) (b : ℝ) : Prop where
  count : c.count = 1
  values : ∀ x, x.size = a.size → c.values x = .ok (.constant 1 (a.pairing x - b))
  jacobian : ∀ x, x.size = a.size → ∃ J, c.jacobian x = .ok J ∧ J.rows = #[a]

namespace Constraints.HalfSpace

variable {c : Constraints ℝ} {a : Coords ℝ} {b : ℝ} {J : Table ℝ}

theorem shape (rows : J.rows = #[a]) : J.height = 1 ∧ J.width = a.size :=
  ⟨congrArg Array.size rows, (J.row_size a (by simp [rows])).symm⟩

theorem mat_eq (rows : J.rows = #[a]) (i : Fin 1) : J.mat 1 a.size i = a.vec a.size := by
  refine Table.mat_of_row ?_
  rw [rows, Subsingleton.elim i 0]
  rfl

theorem transpose_mulVec (rows : J.rows = #[a]) (e : Fin 1 → ℝ) :
    (J.mat 1 a.size).transpose.mulVec e = e 0 • a.vec a.size := by
  funext j
  simp [Matrix.mulVec, dotProduct, mat_eq rows, mul_comm]

theorem feasible_iff (halfSpace : c.HalfSpace a b) {x : Coords ℝ} (size : x.size = a.size) :
    c.feasible x = .ok true ↔ a.pairing x ≤ b := by
  rw [feasible_eq_ok]
  simp [halfSpace.values x size, Coords.constant, Coords.toList]

end Constraints.HalfSpace

theorem Constraints.linear_halfSpace {A : Table ℝ} {a : Coords ℝ} (rows : A.rows = #[a]) (b : ℝ) :
    (Constraints.linear A (.constant 1 b)).HalfSpace a b := by
  refine ⟨Coords.size_constant _ _, fun x size => ?_, fun x _ => ⟨A, rfl, rows⟩⟩
  have applied : A.apply x = .ok ⟨#[a.pairing x]⟩ := by
    rw [Table.apply, if_pos ((HalfSpace.shape rows).2.trans size.symm), rows, List.map_toArray]
    rfl
  simp [linear, applied, bind, Except.bind, Coords.sub, Coords.combine, Coords.constant, Coords.size]

namespace DynamicBarrier

variable {config : Config ℝ} {p : Constrained ℝ} {a : Coords ℝ} {b : ℝ} {s s' : MultiplierState ℝ}

/-- Clipped at zero or not, the multiplier of a single constraint takes it down as fast as is demanded. -/
theorem demand_le_of_clipped (demand slope : ℝ) {square : ℝ} (nonzero : 0 < square) :
    demand ≤ slope + (if 0 ≤ (demand - slope) / square then (demand - slope) / square else 0) * square := by
  split
  · rw [div_mul_cancel₀ _ nonzero.ne']
    linarith
  · rename_i negative
    have below : demand - slope < 0 := by
      rwa [not_le, div_lt_iff₀ nonzero, zero_mul] at negative
    linarith

/-- What the barrier demands of the constraint at a point. -/
noncomputable def demand (config : Config ℝ) (a : Coords ℝ) (b : ℝ) (x : Coords ℝ) : ℝ :=
  match config.barrier with
  | .values => (a.pairing x - b) * config.alpha
  | .gradients => config.beta * a.pairing a

theorem demands_eq {J : Table ℝ} (rows : J.rows = #[a]) (x : Coords ℝ) :
    demands config (.constant 1 (a.pairing x - b)) J = .constant 1 (demand config a b x) := by
  rw [demands, demand]
  cases config.barrier with
  | values => simp [Coords.scale, Coords.map, Coords.constant]
  | gradients => simp [rows, Coords.constant]

theorem dotProduct_direction {J : Table ℝ} {gradient d : Coords ℝ} {l : ℝ} (rows : J.rows = #[a])
    (size : gradient.size = a.size) (made : direction gradient J (.constant 1 l) = .ok d) :
    a.vec a.size ⬝ᵥ d.vec a.size = -(gradient.pairing a + l * a.pairing a) := by
  obtain ⟨high, wide⟩ := Constraints.HalfSpace.shape rows
  have fits : Dual.Fits ⟨gradient, J, .constant 1 0⟩ 1 a.size := ⟨size, high, wide, Coords.size_constant _ _⟩
  have square : a.pairing a = a.vec a.size ⬝ᵥ a.vec a.size := Coords.pairing_eq le_rfl a
  have slope : gradient.pairing a = a.vec a.size ⬝ᵥ gradient.vec a.size :=
    (Coords.pairing_eq size.le a).trans (dotProduct_comm _ _)
  rw [fits.vec_direction made, Constraints.HalfSpace.transpose_mulVec rows, Coords.vec_constant, dotProduct_sub,
    dotProduct_neg, dotProduct_smul, smul_eq_mul, square, slope]
  ring

/-- A step takes the constraint down by the rate times what is demanded. -/
theorem step_halfSpace (valid : schema.validate config = .ok ()) (objective : p.objective.Conforming a.size)
    (halfSpace : p.constraints.HalfSpace a b) (nonzero : 0 < a.pairing a) (size : s.point.size = a.size) :
    ∃ s', (step config p s).outcome = .ok s' ∧ s'.point.size = a.size ∧
      a.pairing s'.point - b ≤ a.pairing s.point - b - config.rate * demand config a b s.point := by
  obtain ⟨rate, _⟩ := validate_eq_ok.mp valid
  obtain ⟨gradient, atGradient, gSize⟩ := objective.gradient s.point size
  obtain ⟨J, atJacobian, rows⟩ := halfSpace.jacobian s.point size
  obtain ⟨high, wide⟩ := Constraints.HalfSpace.shape rows
  have row : J.row ⟨0, high ▸ one_pos⟩ = a := by simp [Table.row, rows]
  have demanded : demands config (.constant 1 (a.pairing s.point - b)) J =
    .constant 1 (demand config a b s.point) :=
    demands_eq rows s.point
  have present : 0 < (Coords.constant 1 (demand config a b s.point)).size :=
    (Coords.size_constant _ _).symm ▸ one_pos
  obtain ⟨l, clipped, quotient⟩ := single_eq_ok gSize present
  rw [← demanded] at clipped
  obtain ⟨d, s', moves, fits⟩ := moves_ok size atGradient gSize atJacobian wide (halfSpace.values s.point size)
    ((Coords.size_constant _ _).trans high.symm) (multipliers_of_one high row clipped)
    ((Coords.size_constant _ _).trans high.symm)
  refine ⟨s', step_eq_ok.mpr ⟨_, _, _, _, _, moves⟩, fits, ?_⟩
  have value : l = (demand config a b s.point - gradient.pairing a) / a.pairing a := quotient nonzero
  have met := demand_le_of_clipped (demand config a b s.point) (gradient.pairing a) nonzero
  have moved : a.pairing s'.point = a.pairing s.point + config.rate * (a.vec a.size ⬝ᵥ d.vec a.size) := by
    rw [Coords.pairing_eq le_rfl, Coords.pairing_eq le_rfl, Coords.vec_advance moves.point_eq, dotProduct_add,
      dotProduct_smul, smul_eq_mul]
  rw [← value] at met
  rw [moved, dotProduct_direction rows gSize moves.direction_eq]
  linarith [mul_le_mul_of_nonneg_left met rate.le]

section

variable (valid : schema.validate config = .ok ()) (objective : p.objective.Conforming a.size)
  (halfSpace : p.constraints.HalfSpace a b) (nonzero : 0 < a.pairing a) {x : Coords ℝ} (size : x.size = a.size)

include valid objective halfSpace nonzero size

theorem reached_halfSpace (k : Nat) :
    ∃ s, method.after config p x () k = .ok (s, ()) ∧ s.point.size = a.size := by
  have start : ∃ s, (method.start config p x).outcome = .ok s ∧ s.point.size = a.size := ⟨_, rfl, size⟩
  obtain ⟨s, _, reached, fits⟩ := Method.after_reaches (fun _ s => s.point.size = a.size) start
    (fun _ _ s fits =>
      have ⟨s', made, fits', _⟩ := step_halfSpace valid objective halfSpace nonzero fits
      ⟨s', made, fits'⟩) k
  exact ⟨s, reached, fits⟩

theorem next_halfSpace (k : Nat) : ∃ s s', method.after config p x () k = .ok (s, ()) ∧
    method.after config p x () (k + 1) = .ok (s', ()) ∧
      a.pairing s'.point - b ≤ a.pairing s.point - b - config.rate * demand config a b s.point := by
  obtain ⟨s, reached, fits⟩ := reached_halfSpace valid objective halfSpace nonzero size k
  obtain ⟨s', made, _, fallen⟩ := step_halfSpace valid objective halfSpace nonzero fits
  exact ⟨s, s', reached, Method.after_succ_eq_ok.mpr ⟨s, (), reached, made, rfl⟩, fallen⟩

theorem values_halfSpace (scaled : config.barrier = .values) (short : config.rate * config.alpha ≤ 1) {k : Nat}
    {s : MultiplierState ℝ} (reached : method.after config p x () k = .ok (s, ())) :
    a.pairing s.point - b ≤ (1 - config.rate * config.alpha) ^ k * (a.pairing x - b) := by
  -- The share that a step leaves of the value is the same at every state.
  induction k generalizing s with
  | zero =>
    cases reached
    rw [pow_zero, one_mul]
  | succ k ih =>
    obtain ⟨before, next, earlier, made, fallen⟩ := next_halfSpace valid objective halfSpace nonzero size k
    obtain rfl := (Prod.mk.inj (Except.ok.inj (made.symm.trans reached))).1
    have demanded : demand config a b before.point = (a.pairing before.point - b) * config.alpha := by
      rw [demand, scaled]
    calc a.pairing next.point - b
        ≤ (1 - config.rate * config.alpha) * (a.pairing before.point - b) := by
          rw [demanded] at fallen
          linarith
      _ ≤ (1 - config.rate * config.alpha) *
            ((1 - config.rate * config.alpha) ^ k * (a.pairing x - b)) :=
          mul_le_mul_of_nonneg_left (ih earlier) (sub_nonneg.mpr short)
      _ = (1 - config.rate * config.alpha) ^ (k + 1) * (a.pairing x - b) := by ring

end

theorem pairing_self_pos (nonzero : a ≠ .zeros a.size) : 0 < a.pairing a := by
  have nonneg : 0 ≤ a.vec a.size ⬝ᵥ a.vec a.size := Finset.sum_nonneg fun i _ => mul_self_nonneg _
  rw [Coords.pairing_eq le_rfl]
  refine nonneg.lt_of_ne fun zero => nonzero ?_
  refine Coords.eq_of_vec rfl (Coords.size_constant _ _) ?_
  rw [dotProduct_self_eq_zero.mp zero.symm, Coords.vec_zeros]

/-- Under one affine constraint, with a barrier that is a multiple of the value and a rate that does not
overshoot, the value shrinks by a constant share at every step, so that a feasible start stays feasible; with
the squared length of the gradient for a barrier it falls by the rate times that. -/
theorem halfSpace_decay (config : Config ℝ) (p : Constrained ℝ) (a x : Coords ℝ) (b : ℝ)
    (valid : schema.validate config = .ok ()) (objective : p.objective.Conforming a.size)
    (halfSpace : p.constraints.HalfSpace a b) (nonzero : a ≠ .zeros a.size) (size : x.size = a.size) :
    (config.barrier = .values → config.rate * config.alpha ≤ 1 →
      (0 ≤ 1 - config.rate * config.alpha ∧ 1 - config.rate * config.alpha < 1) ∧
      ∀ k, ∃ s, method.after config p x () k = .ok (s, ()) ∧
        a.pairing s.point - b ≤ (1 - config.rate * config.alpha) ^ k * (a.pairing x - b) ∧
        (p.constraints.feasible x = .ok true → p.constraints.feasible s.point = .ok true)) ∧
    (config.barrier = .gradients → ∀ k, ∃ s s', method.after config p x () k = .ok (s, ()) ∧
      method.after config p x () (k + 1) = .ok (s', ()) ∧
      a.pairing s'.point - b ≤ a.pairing s.point - b - config.rate * config.beta * a.norm ^ 2) := by
  have positive := pairing_self_pos nonzero
  obtain ⟨rate, alpha, _⟩ := validate_eq_ok.mp valid
  refine ⟨fun scaled short => ⟨⟨sub_nonneg.mpr short, sub_lt_self 1 (mul_pos rate alpha)⟩, fun k => ?_⟩,
    fun squared k => ?_⟩
  · obtain ⟨s, reached, fits⟩ := reached_halfSpace valid objective halfSpace positive size k
    have bound := values_halfSpace valid objective halfSpace positive size scaled short reached
    refine ⟨s, reached, bound, fun inside => ?_⟩
    rw [halfSpace.feasible_iff size] at inside
    rw [halfSpace.feasible_iff fits, ← sub_nonpos]
    exact bound.trans (mul_nonpos_of_nonneg_of_nonpos (pow_nonneg (sub_nonneg.mpr short) k) (sub_nonpos.mpr inside))
  · obtain ⟨s, s', reached, made, fallen⟩ := next_halfSpace valid objective halfSpace positive size k
    have length : a.norm ^ 2 = a.pairing a := Real.sq_sqrt positive.le
    have demanded : demand config a b s.point = config.beta * a.norm ^ 2 := by
      rw [demand, squared, length]
    rw [demanded, ← mul_assoc] at fallen
    exact ⟨s, s', reached, made, fallen⟩

/-- Half the squared length where the two coordinates together are at most minus one. -/
noncomputable def slanted : Constrained ℝ :=
  ⟨.halfSquare 2, .linear ⟨2, #[.constant 2 1], by simp⟩ (.constant 1 (-1))⟩

/-- From the origin, which is not feasible: three steps towards the half-plane, and with the other barrier a step
after two. -/
theorem halfSpace_decay_slanted : ∃ s t t' : MultiplierState ℝ,
    method.after rough slanted (.zeros 2) () 3 = .ok (s, ()) ∧
      (Coords.constant 2 1).pairing s.point + 1 ≤ 1 / 8 ∧
      method.after { rough with barrier := .gradients } slanted (.zeros 2) () 2 = .ok (t, ()) ∧
      method.after { rough with barrier := .gradients } slanted (.zeros 2) () 3 = .ok (t', ()) ∧
      (Coords.constant 2 1).pairing t'.point ≤ (Coords.constant 2 1).pairing t.point - 1 := by
  have objective : slanted.objective.Conforming 2 := Objective.halfSquare_conforming 2
  have halfSpace : slanted.constraints.HalfSpace (.constant 2 1) (-1) := Constraints.linear_halfSpace rfl (-1)
  have nonzero : (Coords.constant 2 1 : Coords ℝ) ≠ .zeros 2 := fun same => by
    have entries := congrArg (fun y => y.vec 2 0) same
    simp at entries
  have start : (Coords.constant 2 1 : Coords ℝ).pairing (.zeros 2) = 0 := by
    rw [Coords.pairing_eq (Coords.size_constant _ _).le, Coords.vec_zeros, dotProduct_zero]
  have length : (Coords.constant 2 1 : Coords ℝ).norm ^ 2 = 2 := by
    rw [Coords.norm_eq (Coords.size_constant 2 _).le, Coords.vec_constant]
    norm_num [dotProduct]
  have other : schema.validate { rough with barrier := .gradients } = .ok () :=
    validate_eq_ok.mpr (by norm_num [rough])
  obtain ⟨_, decays⟩ := (halfSpace_decay rough slanted (.constant 2 1) (.zeros 2) (-1) validate_rough objective
    halfSpace nonzero rfl).1 rfl (by norm_num [rough])
  obtain ⟨s, reached, bound, _⟩ := decays 3
  obtain ⟨t, t', before, made, fallen⟩ := (halfSpace_decay { rough with barrier := .gradients } slanted
    (.constant 2 1) (.zeros 2) (-1) other objective halfSpace nonzero rfl).2 rfl 2
  refine ⟨s, t, t', reached, ?_, before, made, ?_⟩
  · rw [start] at bound
    norm_num [rough] at bound
    linarith
  · rw [length] at fallen
    norm_num [rough] at fallen
    linarith

end DynamicBarrier

end Downhill
