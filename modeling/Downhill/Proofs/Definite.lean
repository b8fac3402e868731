import Mathlib
import Downhill.Proofs.Definite.Constrained
import Downhill.Proofs.Definite.Unconstrained
import Downhill.Proofs.Spectrum.Bound

namespace Downhill

/-- In exact arithmetic every divisor is a number other than zero, and no root is taken of a number below
zero. So whatever were answered there, the eleven methods would start, draw, step and measure as they do, and
so would their runs, of any length, on any problem. -/
theorem every_method_definite (x : Coords ℝ) :
    -- What the computations that the methods share divide by, and what they take a root of.
    (∀ y : Coords ℝ, 0 ≤ y.pairing y) ∧
    (∀ v : ℝ, 2.0 * Difference.step v ≠ 0) ∧
    (∀ n, ∀ E E' : Elimination ℝ n, ∀ column, E.step column = some E' →
      (E.exchangeRows column (Elimination.pivotRow E.cells column)).cells column column ≠ 0) ∧
    (∀ n, ∀ A : Square ℝ n, ∀ E, Elimination.factor A = some E → ∀ i, E.cells i i ≠ 0) ∧
    (∀ n, ∀ A L L' : Square ℝ n, ∀ j, Cholesky.step A L j = some L' →
      0 ≤ A j j - Cholesky.overlap L j j ∧ √(A j j - Cholesky.overlap L j j) ≠ 0) ∧
    (∀ n, ∀ A : Square ℝ n, ∀ C, Cholesky.factor A = some C → ∀ i, C.lower i i ≠ 0) ∧
    (∀ n, ∀ A : Square ℝ n, ∀ p q, ¬|A p q| ≤ Scalar.smallestNormal →
      let ratio := (A q q - A p p) / (2.0 * A p q)
      let t := Rotation.tangent A p q
      2.0 * A p q ≠ 0 ∧ 0 ≤ ratio * ratio + 1 ∧ |ratio| + √(ratio * ratio + 1) ≠ 0 ∧
        0 ≤ t * t + 1 ∧ √(t * t + 1) ≠ 0) ∧
    (∀ n, ∀ A : Square ℝ n,
      0 ≤ Scalar.total ((Square.above n).map fun place => A place.1 place.2 * A place.1 place.2) ∧
      0 ≤ Scalar.total ((List.finRange n).flatMap fun i => (List.finRange n).map fun j => A i j * A i j)) ∧
    -- What the methods divide by themselves.
    (∀ w : ℝ, 0 ≤ 1 + 4.0 * w * w ∧ 1 ≤ Acceleration.nextWeight w) ∧
    (∀ counter : Nat, (counter : ℝ) + 1 ≠ 0) ∧
    (∀ gradient row barrier : Coords ℝ, ¬0 < row.pairing row → DynamicBarrier.single gradient row barrier = .ok 0) ∧
    (∀ config : RandomSubspace.Gradient.Config ℝ, RandomSubspace.Gradient.schema.validate config = .ok () →
      ((config.dim.toNat : Nat) : ℝ) ≠ 0) ∧
    (∀ config : RandomSubspace.Newton.Config ℝ, RandomSubspace.Newton.schema.validate config = .ok () →
      ((config.dim.toNat : Nat) : ℝ) ≠ 0) ∧
    (∀ config : InteriorPoint.Config ℝ, InteriorPoint.schema.validate config = .ok () →
      ∀ p : Constrained ℝ, p.constraints.Conforming x.size →
      ∀ k s, InteriorPoint.method.after config p x () k = .ok (s, ()) →
        ∃ values eta, p.constraints.values s.point = .ok values ∧ InteriorPoint.gap values s.multipliers = .ok eta ∧
          eta ≠ 0 ∧ config.mu * (s.multipliers.size : ℝ) / eta ≠ 0) ∧
    -- Whatever is answered where there is no quotient or no root, these computations are the same …
    (∀ quotient root : ℝ → ℝ,
      @Difference.hessian ℝ (.extended quotient root) = Difference.hessian ∧
      @solve ℝ (.extended quotient root) = solve ∧
      @solveDefinite ℝ (.extended quotient root) = solveDefinite ∧
      @Table.spectrum ℝ (.extended quotient root) = Table.spectrum ∧
      @DynamicBarrier.single ℝ (.extended quotient root) = DynamicBarrier.single ∧
      @InteriorPoint.maxDualStep ℝ (.extended quotient root) = InteriorPoint.maxDualStep) ∧
    -- … and so are the methods.
    (∀ f : Objective ℝ,
      (∀ config, Method.Definite GradientDescent.method config f x) ∧
      (∀ config, Method.Definite Acceleration.method config f x) ∧
      (∀ config, Method.Definite Newton.method config f x) ∧
      (∀ config, Method.Definite WindowedNewton.method config f x) ∧
      ∀ (σ : Type) (next : σ → ℝ × σ),
        (∀ config : RandomSubspace.Gradient.Config ℝ, RandomSubspace.Gradient.schema.validate config = .ok () →
          Method.Definite (RandomSubspace.Gradient.method next) config f x) ∧
        ∀ config : RandomSubspace.Newton.Config ℝ, RandomSubspace.Newton.schema.validate config = .ok () →
          Method.Definite (RandomSubspace.Newton.method next) config f x) ∧
    (∀ p : Composite ℝ,
      (∀ config, Method.Definite ProximalGradient.method config p x) ∧
      ∀ config, Method.Definite ProximalMomentum.method config p x) ∧
    ∀ p : Constrained ℝ,
      (∀ config, Method.Definite GradientProjection.method config p x) ∧
      (∀ config : InteriorPoint.Config ℝ, InteriorPoint.schema.validate config = .ok () →
        Method.Definite InteriorPoint.method config p x) ∧
      ∀ config, Method.Definite DynamicBarrier.method config p x := by
  refine ⟨Coords.pairing_self_nonneg, fun v => (Difference.width_pos v).ne',
    fun n E E' column made => Elimination.pivot_of_step made,
    fun n A E made => Elimination.diagonal_of_factor made, fun n A L L' j made => ?_,
    fun n A C made i => (Cholesky.diagonal_of_factor made i).ne', fun n A p q large => ?_,
    fun n A => ⟨Spectrum.offDiagonal_radicand A, Spectrum.magnitude_radicand A⟩,
    fun w => ⟨(Acceleration.radicand_pos w).le, Acceleration.one_le_nextWeight w⟩,
    fun counter => (ProximalMomentum.momentumDivisor_pos counter).ne',
    fun gradient row barrier => DynamicBarrier.single_of_still,
    fun config => RandomSubspace.Gradient.dim_of_valid, fun config => RandomSubspace.Newton.dim_of_valid,
    fun config valid p conforming k s => InteriorPoint.divisors_of_after valid conforming,
    fun quotient root => ?_, fun f => ?_, fun p => ?_, fun p => ?_⟩
  · have pivot := Cholesky.pivot_of_step made
    exact ⟨pivot.le, (Real.sqrt_pos.mpr pivot).ne'⟩
  · intro ratio t
    exact ⟨Rotation.entry_of_clear large, (Rotation.radicand_pos ratio).le, (Rotation.tangentDivisor_pos ratio).ne',
      (Rotation.radicand_pos t).le, (Real.sqrt_pos.mpr (Rotation.radicand_pos t)).ne'⟩
  · exact ⟨Difference.hessian_extended, solve_extended,
      solveDefinite_extended, Table.spectrum_extended,
      DynamicBarrier.single_extended, InteriorPoint.maxDualStep_extended⟩
  · exact ⟨fun config => Method.definite_of_eq GradientDescent.method_extended,
      fun config => Method.definite_of_eq Acceleration.method_extended,
      fun config => Method.definite_of_eq Newton.method_extended,
      fun config => Method.definite_of_eq WindowedNewton.method_extended,
      fun σ next => ⟨fun config valid => RandomSubspace.Gradient.definite next valid f x,
        fun config valid => RandomSubspace.Newton.definite next valid f x⟩⟩
  · exact ⟨fun config => Method.definite_of_eq ProximalGradient.method_extended,
      fun config => Method.definite_of_eq ProximalMomentum.method_extended⟩
  · exact ⟨fun config => Method.definite_of_eq GradientProjection.method_extended,
      fun config valid => InteriorPoint.definite valid p x,
      fun config => Method.definite_of_eq DynamicBarrier.method_extended⟩

/-- Squares of twos that are factored and turned, drawings in the plane, and the state after one step in a box. -/
theorem every_method_definite_boxed :
    let A (n : Nat) : Square ℝ n := .ofFn fun _ _ => 2
    let box := InteriorPoint.boxed 1
    (∃ E E', (Elimination.start (A 1)).step 0 = some E' ∧ Elimination.factor (A 1) = some E ∧ E.cells 0 0 ≠ 0 ∧
      ((Elimination.start (A 1)).exchangeRows 0 (Elimination.pivotRow (A 1) 0)).cells 0 0 ≠ 0) ∧
    (∃ L C, Cholesky.step (A 1) (.ofFn fun _ _ => 0) 0 = some L ∧ Cholesky.factor (A 1) = some C ∧
      C.lower 0 0 ≠ 0) ∧
    2.0 * A 2 0 1 ≠ 0 ∧
    (Method.Definite (RandomSubspace.Gradient.method fun source : Unit => (1, source)) ⟨1, 1, 2, .random, 0.25, 0.5⟩
      (.halfSquare 2) (.zeros 1)) ∧
    (Method.Definite (RandomSubspace.Newton.method fun source : Unit => (1, source)) ⟨2, 1, .random, 0.25, 0.5⟩
      (.halfSquare 2) (.zeros 1)) ∧
    ∃ values eta, InteriorPoint.method.after InteriorPoint.tight box (.zeros 1) () 1 =
    .ok (InteriorPoint.advanced, ()) ∧
      box.constraints.values InteriorPoint.advanced.point = .ok values ∧
      InteriorPoint.gap values InteriorPoint.advanced.multipliers = .ok eta ∧ eta ≠ 0 ∧
      ∀ quotient root drawn,
        (@InteriorPoint.method ℝ (.extended quotient root)).step InteriorPoint.tight box drawn
            InteriorPoint.advanced =
          InteriorPoint.method.step InteriorPoint.tight box drawn InteriorPoint.advanced := by
  intro A box
  obtain ⟨_, _, pivots, diagonals, _, triangles, turned, _, _, _, _, _, _, gaps, _, alone, _, constrained⟩ :=
    every_method_definite (.zeros 1)
  have entry (n : Nat) (i j : Fin n) : A n i j = 2 := Square.entry_ofFn _ i j
  have one : List.finRange 1 = [0] := rfl
  refine ⟨?_, ?_, ?_, ?_, ?_, ?_⟩
  · obtain ⟨E, made⟩ := Elimination.factor_of_one (A := A 1) (by rw [entry]; norm_num [Elimination.pivotFloor])
    obtain ⟨E', stepped⟩ := Option.ne_none_iff_exists'.mp
      fun refused : (Elimination.start (A 1)).step 0 = none => by
      rw [Elimination.factor, one, List.foldlM_cons, refused] at made
      cases made
    exact ⟨E, E', stepped, made, diagonals 1 _ E made 0, pivots 1 _ E' 0 stepped⟩
  · have first (L : Square ℝ 1) : Cholesky.overlap L 0 0 = 0 := Scalar.total_exact _
    have pivot : 0 < A 1 0 0 - Cholesky.overlap (.ofFn fun _ _ => 0) (0 : Fin 1) 0 := by
      rw [first, entry]
      norm_num
    obtain ⟨L, stepped⟩ : ∃ L, Cholesky.step (A 1) (.ofFn fun _ _ => 0) 0 = some L :=
      ⟨_, (Cholesky.factored_start (A 1)).step_eq_some.mpr ⟨pivot, rfl⟩⟩
    have made : Cholesky.factor (A 1) = some ⟨L⟩ := by
      rw [Cholesky.factor, one, List.foldlM_cons, stepped]
      rfl
    exact ⟨L, ⟨L⟩, stepped, made, triangles 1 _ _ made 0⟩
  · refine (turned 2 (A 2) 0 1 ?_).1
    rw [entry]
    exact not_le.mpr (Scalar.smallestNormal_le_one.trans_lt (by norm_num))
  · exact ((alone (.halfSquare 2)).2.2.2.2 Unit _).1 _ (RandomSubspace.Gradient.validate_eq_ok.mpr
      ⟨⟨rfl, one_pos⟩, by decide, by norm_num⟩)
  · exact ((alone (.halfSquare 2)).2.2.2.2 Unit _).2 _
      (RandomSubspace.Newton.validate_eq_ok.mpr ⟨by decide, by norm_num⟩)
  · have conforming := InteriorPoint.boxed_conforming 1
    obtain ⟨values, eta, atValues, atGap, nonzero, _⟩ := gaps InteriorPoint.tight InteriorPoint.tight_valid box
      conforming 1 _ InteriorPoint.after_tight
    have definite := (constrained box).2.1 InteriorPoint.tight InteriorPoint.tight_valid
    exact ⟨values, eta, InteriorPoint.after_tight, atValues, atGap, nonzero, fun quotient root =>
      definite.step quotient root InteriorPoint.after_tight⟩

end Downhill
