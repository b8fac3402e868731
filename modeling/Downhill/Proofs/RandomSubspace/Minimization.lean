import Mathlib
import Downhill.Proofs.Elimination.Solution
import Downhill.Proofs.Paraboloid
import Downhill.Proofs.RandomSubspace
import Downhill.Proofs.Run.Agreement

namespace Downhill.RandomSubspace.Newton

/-- There is a Newton direction in the subspace through the point of a state. -/
def Solves (f : Objective ℝ) (basis : Table ℝ) (s : PointState ℝ) : Prop :=
  ∃ gradient hessian d, (f.restrict ⟨s.point, basis⟩).gradient (.zeros basis.height) = .ok gradient ∧
    (f.restrict ⟨s.point, basis⟩).hessian (.zeros basis.height) = .ok hessian ∧
    direction gradient hessian = .ok d

variable {config : Config ℝ} {f : Objective ℝ} {basis : Table ℝ} {s s' : PointState ℝ} {n : Nat}

theorem size_of_step (made : (step config f basis s).outcome = .ok s') : s'.point.size = s.point.size := by
  obtain ⟨_, _, _, _, _, _, _, moves⟩ := step_eq_ok.mp made
  exact (Coords.size_combine moves.within.point_eq).2

section

variable (conforming : f.Conforming n) (expands : f.Expands n) (symmetric : f.SymmetricHessians n)
  (wide : basis.width = n) (fits : s.point.size = n)

include conforming expands symmetric wide fits

/-- A step comes to an end exactly where there is a direction. -/
theorem step_ok_iff : (∃ s', (step config f basis s).outcome = .ok s') ↔ Solves f basis s := by
  let space : Subspace ℝ := ⟨s.point, basis⟩
  have restricted : (f.restrict space).Conforming space.dim := Objective.restrict_conforming conforming wide fits
  have expands' : (f.restrict space).Expands space.dim := Objective.restrict_expands expands wide fits
  have origin : (Coords.zeros space.dim : Coords ℝ).size = space.dim := Coords.size_constant _ _
  constructor
  · rintro ⟨s', made⟩
    obtain ⟨value, gradient, hessian, d, _, _, _, moves⟩ := step_eq_ok.mp made
    obtain ⟨_, atGradient, _⟩ := restricted.of_expand expands' origin moves.expand_eq
    exact ⟨gradient, hessian, d, atGradient, moves.hessian_eq, moves.direction_eq⟩
  · rintro ⟨gradient, hessian, d, atGradient, atHessian, made⟩
    obtain ⟨value, g, _, same, size, expanded⟩ := restricted.expand_ok expands' origin
    obtain rfl := Except.ok.inj (same.symm.trans atGradient)
    have high : hessian.height = space.dim :=
      (Objective.restrict_symmetricHessians symmetric wide fits).height_eq origin atHessian
    obtain ⟨dSize, _⟩ := mulVec_of_solve made high
    obtain ⟨along, slope, found, y, within⟩ := Armijo.within_ok conforming wide fits size dSize config.search value
    exact ⟨{ s with point := y }, step_eq_ok.mpr
      ⟨value, g, hessian, d, along, slope, found, expanded, atHessian, made, within, rfl⟩⟩

end

section

variable {H : Table ℝ} {value slope : ℝ} {gradient d along : Coords ℝ} {hessian : Table ℝ}
  {found : Armijo.Outcome ℝ}
  (moves : Moves config f basis s value gradient hessian d along slope found s')
  (paraboloid : f.Paraboloid H n) (hessians : ∀ y, y.size = n → f.hessian y = .ok H)
  (wide : basis.width = n) (fits : s.point.size = n)

include moves paraboloid hessians wide fits

/-- The system of the subspace, which is solved by the direction. -/
theorem Moves.reduced (definite : (H.mat n n).PosSemidef) :
    (f.restrict ⟨s.point, basis⟩).Paraboloid hessian basis.height ∧
      (hessian.mat basis.height basis.height).PosSemidef ∧ d.size = basis.height ∧
      (hessian.mat basis.height basis.height).mulVec (d.vec basis.height) = -gradient.vec basis.height := by
  let space : Subspace ℝ := ⟨s.point, basis⟩
  have broad : space.basis.width = n := wide
  have lifted : space.lift (.zeros space.dim) = .ok s.point := Subspace.lift_zeros wide fits
  obtain ⟨R, same, high, across, form, _⟩ :=
    Objective.restrict_hessian broad lifted (hessians _ fits) paraboloid.high
    paraboloid.wide paraboloid.symmetric
  obtain rfl := Except.ok.inj (same.symm.trans moves.hessian_eq)
  obtain ⟨size, solved⟩ := mulVec_of_solve moves.direction_eq high
  refine ⟨paraboloid.restrict wide fits high across form, ?_, size, solved.trans (Coords.vec_neg _ _)⟩
  change (R.mat space.dim space.dim).PosSemidef
  rw [form]
  simpa using definite.mul_mul_conjTranspose_same (space.basis.mat space.dim n)

variable (conforming : f.Conforming n) (expands : f.Expands n) (definite : (H.mat n n).PosSemidef)
  (half : config.alpha ≤ 1 / 2)

include conforming expands definite half

/-- A step that does not fail takes the whole direction, and the gradient where it ends has no part in the
subspace. -/
theorem Moves.lands : found.step = 1 ∧ found.exhausted = false ∧
    Subspace.lift ⟨s.point, basis⟩ d = .ok s'.point ∧ Subspace.Flat ⟨s.point, basis⟩ f s'.point := by
  have restricted : (f.restrict ⟨s.point, basis⟩).Conforming basis.height :=
    Objective.restrict_conforming conforming wide fits
  have origin : (Coords.zeros basis.height : Coords ℝ).size = basis.height := Coords.size_constant _ _
  obtain ⟨form, nonneg, dSize, solved⟩ := moves.reduced paraboloid hessians wide fits definite
  obtain ⟨here, atGradient, gradientSize⟩ :=
    restricted.of_expand (Objective.restrict_expands expands wide fits) origin moves.expand_eq
  obtain ⟨y, moved, ySize⟩ := Coords.add_ok fits (Subspace.size_embed wide moves.within.embed_eq)
  have lifted : Subspace.lift ⟨s.point, basis⟩ d = .ok y :=
    Outcome.bind_eq_ok.mpr ⟨along, moves.within.embed_eq, moved⟩
  obtain ⟨low, there⟩ := conforming.value y ySize
  obtain ⟨g, atEnd, gSize⟩ := conforming.gradient y ySize
  obtain ⟨r, applied, rSize⟩ := Table.apply_ok (A := basis) (wide.trans gSize.symm)
  have way : d.vec basis.height - (Coords.zeros basis.height).vec basis.height = d.vec basis.height := by
    rw [Coords.vec_zeros, sub_zero]
  obtain ⟨descends, lowered, flat⟩ := form.newton_step restricted nonneg origin dSize here
    (Outcome.bind_eq_ok.mpr ⟨y, lifted, there⟩) atGradient
    (Outcome.bind_eq_ok.mpr ⟨y, lifted, Outcome.bind_eq_ok.mpr ⟨g, atEnd, applied⟩⟩) solved way
  rw [← (Coords.dot_eq gradientSize.le moves.within.slope_eq).2] at descends lowered
  -- Half of the promised decrease is made, which is enough.
  have enough : config.search.Sufficient value slope config.search.initial low := by
    change low ≤ value + config.alpha * 1 * slope
    rw [lowered]
    linarith [mul_le_mul_of_nonpos_right half descends]
  have full : Armijo.candidate s.point along config.search.initial = .ok y := by
    change s.point.add (along.scale 1) = .ok y
    rw [Coords.scale_one]
    exact moved
  obtain ⟨whole, satisfied⟩ := Armijo.initial_of_run moves.within.search_eq full there enough
  have landed := moves.within.point_eq
  rw [whole] at landed
  obtain rfl : y = s'.point := Except.ok.inj (full.symm.trans landed)
  have zero : r = .zeros basis.height := Coords.eq_of_vec rSize origin (by rw [flat, Coords.vec_zeros])
  exact ⟨whole, satisfied, lifted, g, atEnd, zero ▸ applied⟩

end

section

variable {σ : Type} {x : Coords ℝ} {next : σ → ℝ × σ} {source : σ} (conforming : f.Conforming x.size)
  (dim : config.dim.toNat = x.size)

theorem size_after {k : Nat} {between : σ} (reached : (method next).after config f x source k = .ok (s, between)) :
    s.point.size = x.size := by
  have initial : ∀ s, ((method next).start config f x).outcome = .ok s → s.point.size = x.size := by
    intro s started
    obtain ⟨_, rfl⟩ := start_eq_ok.mp (Work.outcome_except_eq_ok.mp started)
    rfl
  have keeps : ∀ drawn (s s' : PointState ℝ), s.point.size = x.size →
      ((method next).step config f drawn s).outcome = .ok s' → s'.point.size = x.size :=
    fun _ _ _ fits made => (size_of_step made).trans fits
  exact Method.after_invariant initial keeps reached

include conforming dim

variable (next source) in
/-- The method comes as far as it finds directions in what it draws. -/
theorem after_ok_iff (expands : f.Expands x.size) (symmetric : f.SymmetricHessians x.size) (k : Nat) :
    (∃ s between, (method next).after config f x source k = .ok (s, between)) ↔
      ∀ i < k, ∀ s between, (method next).after config f x source i = .ok (s, between) →
        Solves f ((method next).draw config between).1 s :=
  Method.after_ok_iff (fun s => s.point.size = x.size) (Solves f)
    ⟨.initial x, Work.outcome_except_eq_ok.mpr (if_pos dim.symm), rfl⟩
    (fun _ _ _ fits made => (size_of_step made).trans fits)
    (fun between _ fits => step_ok_iff conforming expands symmetric
      ((config.shape.width_draw next between).trans dim) fits) k

end

/-- A step that does not fail goes the whole way to a point of the subspace where no value in it is lower, which is
one where the gradient has no part in it. -/
theorem step_lands {H : Table ℝ} (paraboloid : f.Paraboloid H n) (definite : (H.mat n n).PosSemidef)
    (hessians : ∀ y, y.size = n → f.hessian y = .ok H) (conforming : f.Conforming n) (expands : f.Expands n)
    (half : config.alpha ≤ 1 / 2) (wide : basis.width = n) (fits : s.point.size = n)
    (made : (step config f basis s).outcome = .ok s') :
    let space : Subspace ℝ := ⟨s.point, basis⟩
    (∃ value gradient hessian d along slope found,
      Moves config f basis s value gradient hessian d along slope found s' ∧ found.step = 1 ∧
      found.exhausted = false) ∧
    space.Least f s'.point ∧ space.Flat f s'.point ∧
    ∀ d y, d.size = basis.height → space.lift d = .ok y → (space.Least f y ↔ space.Flat f y) := by
  intro space
  have least : ∀ d y, d.size = basis.height → space.lift d = .ok y → (space.Least f y ↔ space.Flat f y) :=
    fun _ _ size lifted => paraboloid.least_iff_flat conforming definite wide fits size lifted
  obtain ⟨value, gradient, hessian, d, along, slope, found, moves⟩ := step_eq_ok.mp made
  obtain ⟨_, _, size, _⟩ := moves.reduced paraboloid hessians wide fits definite
  obtain ⟨whole, satisfied, lifted, flat⟩ :=
    moves.lands paraboloid hessians wide fits conforming expands definite half
  exact ⟨⟨value, gradient, hessian, d, along, slope, found, moves, whole, satisfied⟩,
    (least d s'.point size lifted).mpr flat, flat, least⟩

/-- On a polynomial of the second degree whose form has no negative direction, whatever is drawn, Newton's
method in subspaces goes as far as it finds directions; every step goes the whole way to a point of the
subspace where no value in it is lower, so that the values that a run records do not rise. -/
theorem minimizes_over_draw {σ : Type} (next : σ → ℝ × σ) (source : σ) (config : Config ℝ) (f : Objective ℝ)
    (H : Table ℝ) (x : Coords ℝ) (valid : schema.validate config = .ok ()) (half : config.alpha ≤ 1 / 2)
    (paraboloid : f.Paraboloid H x.size) (definite : (H.mat x.size x.size).PosSemidef)
    (hessians : ∀ y, y.size = x.size → f.hessian y = .ok H) (conforming : f.Conforming x.size)
    (expands : f.Expands x.size) (dim : config.dim.toNat = x.size) :
    (∀ k, (∃ s between, (method next).after config f x source k = .ok (s, between)) ↔
      ∀ i < k, ∀ s between, (method next).after config f x source i = .ok (s, between) →
        Solves f ((method next).draw config between).1 s) ∧
    (∀ k s between s' last, (method next).after config f x source k = .ok (s, between) →
      (method next).after config f x source (k + 1) = .ok (s', last) →
      let basis := ((method next).draw config between).1
      let space : Subspace ℝ := ⟨s.point, basis⟩
      (∃ value gradient hessian d along slope found,
        Moves config f basis s value gradient hessian d along slope found s' ∧ found.step = 1 ∧
        found.exhausted = false) ∧
      space.Least f s'.point ∧ space.Flat f s'.point ∧
      ∀ d y, d.size = basis.height → space.lift d = .ok y → (space.Least f y ↔ space.Flat f y)) ∧
    ∀ (ρ : Type) (watch : Watch ℝ ρ) (records : ρ) (budget : Nat),
      (watch.recorder = none →
        ((∃ summary, ((method next).run config f watch source records x budget).1 = .ok summary) ↔
          ∀ i < budget, ∀ s between, (method next).after config f x source i = .ok (s, between) →
            Solves f ((method next).draw config between).1 s)) ∧
      ∀ summary, ((method next).run config f watch source records x budget).1 = .ok summary →
        summary.iterations = budget ∧ ∀ i < budget, ∃ v w, summary.history.at? "func_values" i = some v ∧
          summary.history.at? "func_values" (i + 1) = some w ∧ w ≤ v := by
  have symmetric : f.SymmetricHessians x.size := fun y fits =>
    ⟨H, hessians y fits, paraboloid.high, paraboloid.wide, paraboloid.symmetric⟩
  have reaches := after_ok_iff next source conforming dim expands symmetric
  have wide : ∀ between, ((method next).draw config between).1.width = x.size := fun between =>
    (config.shape.width_draw next between).trans dim
  have steps := fun k s between s' last (reached : (method next).after config f x source k = .ok (s, between))
      (reached' : (method next).after config f x source (k + 1) = .ok (s', last)) =>
    step_lands paraboloid definite hessians conforming expands half (wide between) (size_after reached)
      (Method.step_of_after reached reached')
  refine ⟨reaches, steps, fun ρ watch records budget => ⟨fun unrecorded => ?_, fun summary returned => ?_⟩⟩
  · rw [← reaches]
    exact Method.run_ok_iff valid unrecorded
      (fun _ _ _ reached => Method.measured_gradient conforming rfl rfl (size_after reached))
      (unfinished next config f x source)
  · have result := Method.run_returned returned
    have whole := result.whole (unfinished next config f x source)
    refine ⟨whole, fun i early => ?_⟩
    obtain ⟨_, ended⟩ := result.reached
    obtain ⟨s', last, reached'⟩ := Method.after_ok_of_le ended (whole ▸ Nat.succ_le_of_lt early)
    obtain ⟨s, between, reached⟩ := Method.after_ok_of_le reached' i.le_succ
    obtain ⟨v, here⟩ := conforming.value s.point (size_after reached)
    obtain ⟨w, there⟩ := conforming.value s'.point (size_after reached')
    have stands : ∀ {j t between u}, j ≤ budget → (method next).after config f x source j = .ok (t, between) →
        f.value t.point = .ok u → summary.history.at? "func_values" j = some u := fun within reached found =>
      result.at?_of_reached (List.mem_cons_self ..) (within.trans_eq whole.symm) reached found
    -- The point where the step began is one of the subspace.
    obtain ⟨_, least, _⟩ := steps i s between s' last reached reached'
    have lower : w ≤ v := least (.zeros _) s.point w v (Coords.size_constant _ _)
      (Subspace.lift_zeros (wide between) (size_after reached)) there here
    exact ⟨v, w, stands early.le reached here, stands early reached' there, lower⟩

/-- The reduced system of a row of ones is a single equation, with the coefficient five. -/
theorem slanted_solves (high : basis.height = 1) (wide : basis.width = 2)
    (ones : basis.mat 1 2 = Matrix.of fun _ _ => 1) (fits : s.point.size = 2) : Solves .slanted basis s := by
  let space : Subspace ℝ := ⟨s.point, basis⟩
  have broad : space.basis.width = 2 := wide
  have lifted : space.lift (.zeros space.dim) = .ok s.point := Subspace.lift_zeros wide fits
  obtain ⟨R, atHessian, tall, across, form, _⟩ := Objective.restrict_hessian (f := .slanted) broad lifted rfl
    Table.height_slanted rfl Table.posDef_slanted.isHermitian
  obtain ⟨g, atGradient, size⟩ :=
    (Objective.restrict_conforming Objective.slanted_conforming broad fits).gradient _ (Coords.size_constant _ _)
  have single : space.dim = 1 := high
  rw [single, ones, Table.mat_slanted] at form
  obtain ⟨E, made⟩ := Table.eliminate_of_clear (tall.trans single) (across.trans single) (by
    rw [form]
    norm_num [Matrix.mul_apply, Fin.sum_univ_two, Elimination.pivotFloor])
  obtain ⟨d, _, solved, _⟩ := solve_of_eliminate made
    (tall.trans (size.symm.trans (Coords.size_neg g).symm)) "subspace Newton direction"
  exact ⟨g, R, d, atGradient, atHessian, solved⟩

/-- Two steps along the diagonal, with half of the promised decrease required. -/
theorem minimizes_over_draw_slanted : ∃ (summary : Summary ℝ (PointState ℝ) 3) (s' : PointState ℝ) (v w : ℝ),
    ((method fun _ : Unit => (2, ())).run ⟨2, 1, .random, 0.5, 0.5⟩ .slanted (.none : Watch ℝ Unit) () ()
      (.ofFn ![1, 0]) 2).1 = .ok summary ∧
    (method fun _ : Unit => (2, ())).after ⟨2, 1, .random, 0.5, 0.5⟩ .slanted (.ofFn ![1, 0]) () 1 = .ok (s', ()) ∧
    Subspace.Flat ⟨.ofFn ![1, 0], ((Shape.mk .random 1 2).draw (fun _ : Unit => (2, ())) ()).1⟩ .slanted s'.point ∧
    summary.history.at? "func_values" 1 = some v ∧ summary.history.at? "func_values" 2 = some w ∧ w ≤ v := by
  let config : Config ℝ := ⟨2, 1, .random, 0.5, 0.5⟩
  have valid : schema.validate config = .ok () := validate_eq_ok.mpr ⟨by decide, by norm_num [config]⟩
  have size : (Coords.ofFn ![(1 : ℝ), 0]).size = 2 := Coords.size_ofFn _
  have dim : config.dim.toNat = (Coords.ofFn ![(1 : ℝ), 0]).size := size.symm
  obtain ⟨reaches, steps, runs⟩ := minimizes_over_draw (fun _ : Unit => (2, ())) () config .slanted .slanted
    (.ofFn ![1, 0]) valid (by norm_num [config])
    (size.symm ▸ Objective.quadratic_paraboloid (.zeros 2) Table.height_slanted rfl
    Table.posDef_slanted.isHermitian) (size.symm ▸ Table.posDef_slanted.posSemidef) (fun _ _ => rfl)
    (size.symm ▸ Objective.slanted_conforming) (size.symm ▸ Objective.slanted_expands) dim
  let basis := (config.shape.draw (fun _ : Unit => ((2 : ℝ), ())) ()).1
  obtain ⟨high, entries⟩ : basis.height = 1 ∧ basis.mat 1 2 = Matrix.of fun _ _ => 2 / ((2 : Nat) : ℝ) :=
    Shape.mat_draw_constant (rfl : config.shape.mode = .random) 2 rfl rfl
  have ones : basis.mat 1 2 = Matrix.of fun _ _ => 1 := by
    rw [entries]
    norm_num
  have solves : ∀ s : PointState ℝ, s.point.size = 2 → Solves .slanted basis s := fun s fits =>
    slanted_solves high rfl ones fits
  obtain ⟨returns, falls⟩ := runs Unit .none () 2
  obtain ⟨summary, returned⟩ := (returns rfl).mpr fun _ _ s ⟨⟩ reached =>
    solves s ((size_after reached).trans size)
  obtain ⟨s', ⟨⟩, reached⟩ := (reaches 1).mpr fun _ _ s ⟨⟩ reached => solves s ((size_after reached).trans size)
  obtain ⟨_, _, flat, _⟩ := steps 0 (.initial (.ofFn ![1, 0])) () s' ()
    (Method.after_zero_eq_ok.mpr ⟨Work.outcome_except_eq_ok.mpr (if_pos dim.symm), rfl⟩) reached
  obtain ⟨v, w, here, there, lower⟩ := (falls summary returned).2 1 (by norm_num)
  exact ⟨summary, s', v, w, returned, reached, flat, here, there, lower⟩

end Downhill.RandomSubspace.Newton
