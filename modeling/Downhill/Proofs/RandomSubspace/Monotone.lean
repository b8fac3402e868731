import Mathlib
import Downhill.Proofs.Affine
import Downhill.Proofs.RandomSubspace
import Downhill.Proofs.Run.Log
import Downhill.Proofs.Search.SmoothDescent

namespace Downhill.RandomSubspace.Gradient

theorem slope_eq_neg_sq {reduced : Coords ℝ} {slope : ℝ} (product : reduced.dot (direction reduced) = .ok slope) :
    slope = -reduced.norm ^ 2 := by
  have nonneg : 0 ≤ reduced.vec reduced.size ⬝ᵥ reduced.vec reduced.size :=
    Finset.sum_nonneg fun i _ => mul_self_nonneg _
  rw [(Coords.dot_eq le_rfl product).2, direction, Coords.vec_neg, dotProduct_neg, Coords.norm_eq le_rfl,
    Real.sq_sqrt nonneg]

section

variable {config : Config ℝ} {f : Objective ℝ} {basis : Table ℝ} {s s' : PointState ℝ} {value slope L : ℝ}
  {reduced along : Coords ℝ} {found : Armijo.Outcome ℝ} {n : Nat}
  (moves : Moves config f basis s value reduced along slope found s')

include moves

theorem Moves.slope_eq : slope = -reduced.norm ^ 2 :=
  slope_eq_neg_sq moves.within.slope_eq

/-- What is looked at in the subspace is the value at the point and the product of the basis with the gradient. -/
theorem Moves.reads (conforming : f.Conforming n) (expands : f.Expands n) (wide : basis.width = n)
    (fits : s.point.size = n) :
    ∃ g, f.value s.point = .ok value ∧ f.gradient s.point = .ok g ∧ basis.apply g = .ok reduced := by
  have made := moves.expand_eq
  have lifted : Subspace.lift ⟨s.point, basis⟩ (.zeros basis.height) = .ok s.point := Subspace.lift_zeros wide fits
  simp only [Objective.restrict, lifted, Outcome.bind_eq_ok, Outcome.pure_eq_ok, Except.ok.injEq, exists_eq_left',
    Prod.exists, Prod.mk.injEq] at made
  obtain ⟨v, g, expanded, _, applied, rfl, rfl⟩ := made
  obtain ⟨here, atGradient, _⟩ := conforming.of_expand expands fits expanded
  exact ⟨g, here, atGradient, applied⟩

/-- The displacement leads back against the rows combined with the reduced gradient. -/
theorem Moves.vec_along (wide : basis.width = n) {back : Coords ℝ}
    (combined : basis.combineRows reduced = .ok back) :
    along.vec n = -back.vec n := by
  rw [Table.vec_combineRows moves.within.embed_eq rfl wide, Table.vec_combineRows combined rfl wide, direction,
    Coords.vec_neg, Matrix.neg_vecMul]

/-- A step whose search is not exhausted falls by a fraction of the squared reduced gradient. -/
theorem Moves.falls (satisfied : found.exhausted = false) :
    found.value ≤ value - config.alpha * found.step * reduced.norm ^ 2 := by
  have low : found.value ≤ value + config.alpha * found.step * slope :=
    Armijo.sufficient_of_run moves.within.search_eq satisfied
  rw [moves.slope_eq] at low
  linarith

/-- Against a smooth objective the search ends at its first step, or at one that is long enough. -/
theorem Moves.step_ge (conforming : f.Conforming n) (expands : f.Expands n) (wide : basis.width = n)
    (fits : s.point.size = n) (first : 0 < config.initial) (shrinks : 0 < config.beta) (large : 0 < L)
    (smooth : f.Smooth L n) {back : Coords ℝ} (combined : basis.combineRows reduced = .ok back)
    (nonzero : reduced.norm ≠ 0) : back.norm ≠ 0 ∧
      min config.initial (2 * config.beta * (1 - config.alpha) * reduced.norm ^ 2 / (L * back.norm ^ 2)) ≤
        found.step := by
  obtain ⟨g, here, atGradient, applied⟩ := moves.reads conforming expands wide fits
  have steep : slope = g.vec n ⬝ᵥ along.vec n := moves.within.slope_eq_along wide applied
  have slope_eq := moves.slope_eq
  have square : back.vec n ⬝ᵥ back.vec n = back.norm ^ 2 := by
    have nonneg : 0 ≤ back.vec n ⬝ᵥ back.vec n := Finset.sum_nonneg fun i _ => mul_self_nonneg _
    have size : back.size = n := (Table.size_apply combined).2.trans (basis.height_transpose.trans wide)
    rw [Coords.norm_eq size.le, Real.sq_sqrt nonneg]
  have length : along.vec n ⬝ᵥ along.vec n = back.norm ^ 2 := by
    rw [moves.vec_along wide combined, neg_dotProduct_neg, square]
  have apart : back.norm ≠ 0 := by
    intro zero
    -- Without a displacement there would be no slope.
    have still : along.vec n = 0 := dotProduct_self_eq_zero.mp (by rw [length, zero, zero_pow two_ne_zero])
    rw [slope_eq, still, dotProduct_zero, neg_eq_zero] at steep
    exact nonzero (pow_eq_zero_iff two_ne_zero |>.mp steep)
  have curved : 0 < L * (along.vec n ⬝ᵥ along.vec n) := by
    rw [length]
    exact mul_pos large (sq_pos_of_ne_zero apart)
  have started : 0 < config.search.initial := first
  have shrinking : 0 < config.search.factor := shrinks
  have bound := Armijo.step_ge smooth fits here atGradient steep curved started shrinking moves.within.search_eq
  refine ⟨apart, le_trans (le_of_eq ?_) bound⟩
  rw [length, slope_eq, neg_neg]
  change min config.initial _ = min config.initial (config.beta * (2 * (1 - config.alpha) * _ / _))
  congr 1
  ring

end

/-- No step from whatever state, and with whatever basis, notes an ascent. -/
theorem step_notes (config : Config ℝ) (f : Objective ℝ) (basis : Table ℝ) (s : PointState ℝ) (v : ℝ) :
    Event.ascent v ∉ (step config f basis s).events := by
  simp only [step, Armijo.runWithin, Work.mem_events_bind, Work.events_checked, Work.events_note,
    List.mem_singleton, List.not_mem_nil, false_or, reduceCtorEq, and_false, exists_false, or_false,
    Work.outcome_checked_eq_ok]
  rintro ⟨⟨value, reduced⟩, _, along, _, slope, product, noted⟩
  have flat : ¬ 0 < slope := by
    rw [slope_eq_neg_sq product]
    exact not_lt.mpr (neg_nonpos.mpr (sq_nonneg _))
  exact Armijo.ascent_notMem_run _ _ _ _ _ flat v noted

theorem after_ok {σ : Type} {config : Config ℝ} {f : Objective ℝ} {x : Coords ℝ} (conforming : f.Conforming x.size)
    (expands : f.Expands x.size) (dim : config.dim.toNat = x.size) (next : σ → ℝ × σ) (source : σ) (k : Nat) :
    ∃ s between, (method next).after config f x source k = .ok (s, between) ∧ s.point.size = x.size := by
  refine Method.after_reaches (fun _ (s : PointState ℝ) => s.point.size = x.size) ?_ (fun _ between s fits => ?_) k
  · exact ⟨.initial x, Work.outcome_except_eq_ok.mpr (if_pos dim.symm), rfl⟩
  · have wide := (config.shape.width_draw next between).trans dim
    obtain ⟨s', made⟩ : ∃ s', (step config f ((method next).draw config between).1 s).outcome = .ok s' :=
      step_ok conforming expands wide fits
    obtain ⟨_, _, _, _, _, moves⟩ := step_eq_ok.mp made
    exact ⟨s', made, (Coords.size_combine moves.within.point_eq).2.trans fits⟩

/-- Whatever is drawn, the slope is minus the squared length of the reduced gradient, and a search that is not
exhausted takes the value down by the required fraction of its step times that. Against a smooth objective the
step is as long as the curvature allows, up to a shrink, and no run notes an ascent. -/
theorem monotone_for_every_draw {σ : Type} (next : σ → ℝ × σ) (source : σ) (config : Config ℝ) (f : Objective ℝ)
    (x : Coords ℝ) (valid : schema.validate config = .ok ()) (conforming : f.Conforming x.size)
    (expands : f.Expands x.size) (dim : config.dim.toNat = x.size) :
    (∀ k, ∃ s between s' last, (method next).after config f x source k = .ok (s, between) ∧
      (method next).after config f x source (k + 1) = .ok (s', last) ∧
      let basis := ((method next).draw config between).1
      ∃ value gradient reduced back along slope found low,
        f.value s.point = .ok value ∧ f.gradient s.point = .ok gradient ∧ basis.apply gradient = .ok reduced ∧
        basis.combineRows reduced = .ok back ∧ f.value s'.point = .ok low ∧
        Moves config f basis s value reduced along slope found s' ∧ slope = -reduced.norm ^ 2 ∧
        (∃ j ≤ 100, found.step = config.initial * config.beta ^ j) ∧
        (found.exhausted = false → low ≤ value - config.alpha * found.step * reduced.norm ^ 2) ∧
        ∀ L, 0 < L → f.Smooth L x.size → reduced.norm ≠ 0 → back.norm ≠ 0 ∧
          min config.initial (2 * config.beta * (1 - config.alpha) * reduced.norm ^ 2 / (L * back.norm ^ 2)) ≤
            found.step) ∧
    ∀ (ρ : Type) (watch : Watch ℝ ρ) (records : ρ) (budget : Nat),
      (∀ r, watch.recorder = some r → r.NotesOnly fun e => ∀ v, e ≠ .ascent v) →
      ∀ v, .ascent v ∉ ((method next).run config f watch source records x budget).2.events := by
  obtain ⟨⟨_, first⟩, _, _, shrinks, _⟩ := validate_eq_ok.mp valid
  refine ⟨fun k => ?_, fun ρ watch records budget recorder v member => ?_⟩
  · obtain ⟨s, between, reached, fits⟩ := after_ok conforming expands dim next source k
    obtain ⟨s', last, reached', _⟩ := after_ok conforming expands dim next source (k + 1)
    have made := Method.step_of_after reached reached'
    refine ⟨s, between, s', last, reached, reached', ?_⟩
    intro basis
    have wide : basis.width = x.size := (config.shape.width_draw next between).trans dim
    obtain ⟨value, reduced, along, slope, found, moves⟩ := step_eq_ok.mp made
    obtain ⟨g, here, atGradient, applied⟩ := moves.reads conforming expands wide fits
    obtain ⟨back, combined, _⟩ := Table.combineRows_ok (Table.size_apply applied).2
    exact ⟨value, g, reduced, back, along, slope, found, found.value, here, atGradient, applied, combined,
      moves.within.testedLast.value_eq, moves, moves.slope_eq, Armijo.step_eq_pow moves.within.search_eq,
      moves.falls, fun L large smooth nonzero =>
      moves.step_ge conforming expands wide fits first shrinks large smooth combined nonzero⟩
  · have notes : (method next).NotesOnly config f x fun e => ∀ v, e ≠ .ascent v := by
      refine ⟨fun e member => ?_, fun basis s e member w same => step_notes config f basis s w (same ▸ member),
        nofun, nofun⟩
      cases member
    exact notes.run recorder source records budget _ member v rfl

/-- One row for a plane. -/
noncomputable def diagonal : Config ℝ :=
  ⟨1, 1, 2, .random, 0.5, 0.5⟩

theorem validate_diagonal : schema.validate diagonal = .ok () :=
  validate_eq_ok.mpr ⟨⟨rfl, one_pos⟩, by decide, by norm_num [diagonal]⟩

/-- On the row of ones the gradient is reduced to five, which leads along the diagonal. -/
theorem diagonal_reduced {basis : Table ℝ} {g reduced back : Coords ℝ} (high : basis.height = 1)
    (broad : basis.width = 2) (ones : basis.mat 1 2 = Matrix.of fun _ _ => 1)
    (atGradient : Objective.slanted.gradient (.constant 2 1) = .ok g) (applied : basis.apply g = .ok reduced)
    (combined : basis.combineRows reduced = .ok back) :
    reduced.norm ^ 2 = 25 ∧ back.vec 2 = ![5, 5] ∧ back.norm ^ 2 = 50 := by
  have shortened : reduced.vec 1 = ![5] := by
    rw [Table.vec_apply applied high broad, Objective.slanted_gradient_ones atGradient, ones]
    funext i
    norm_num [Matrix.mulVec, dotProduct, Fin.sum_univ_two]
  have through : back.vec 2 = ![5, 5] := by
    rw [Table.vec_combineRows combined high broad, shortened, ones]
    funext i
    fin_cases i <;> norm_num [Matrix.vecMul, dotProduct]
  refine ⟨?_, through, ?_⟩
  · have size : reduced.size ≤ 1 := (Table.size_apply applied).2.trans_le high.le
    rw [Coords.norm_eq size, shortened, Real.sq_sqrt] <;> norm_num [dotProduct]
  · have size : back.size ≤ 2 := ((Table.size_apply combined).2.trans (Table.height_transpose _)).le.trans broad.le
    rw [Coords.norm_eq size, through, Real.sq_sqrt] <;> norm_num [dotProduct, Fin.sum_univ_two]

/-- Along the diagonal of a plane, which a single row of ones spans, the search ends before it is exhausted. -/
theorem monotone_for_every_draw_slanted :
    ∃ (s' : PointState ℝ) (value low : ℝ) (reduced along : Coords ℝ) (found : Armijo.Outcome ℝ),
      (method fun _ : Unit => (2, ())).after diagonal .slanted (.constant 2 1) () 1 = .ok (s', ()) ∧
      Objective.slanted.value (.constant 2 1) = .ok value ∧ Objective.slanted.value s'.point = .ok low ∧
      Moves diagonal .slanted (diagonal.shape.draw (fun _ : Unit => (2, ())) ()).1 (.initial (.constant 2 1)) value
        reduced along (-25) found s' ∧
      found.exhausted = false ∧ 1 / 16 ≤ found.step ∧ low ≤ value - 0.5 * found.step * 25 ∧
      ∀ v, .ascent v ∉ ((method fun _ : Unit => (2, ())).run diagonal .slanted
        (.none : Watch ℝ Unit) () () (.constant 2 1) 3).2.events := by
  obtain ⟨steps, runs⟩ := monotone_for_every_draw (fun _ : Unit => (2, ())) () diagonal .slanted (.constant 2 1)
    validate_diagonal Objective.slanted_conforming Objective.slanted_expands rfl
  obtain ⟨s, ⟨⟩, s', ⟨⟩, reached, reached', value, g, reduced, back, along, slope, found, low, here, atGradient,
    applied, combined, there, moves, steep, _, falls, long⟩ := steps 0
  cases reached
  let basis := (diagonal.shape.draw (fun _ : Unit => ((2 : ℝ), ())) ()).1
  obtain ⟨high, drawn⟩ : basis.height = 1 ∧ basis.mat 1 2 = Matrix.of fun _ _ => 2 / ((2 : Nat) : ℝ) :=
    Shape.mat_draw_constant (rfl : diagonal.shape.mode = .random) 2 rfl rfl
  have broad : basis.width = 2 := rfl
  have ones : basis.mat 1 2 = Matrix.of fun _ _ => 1 := by rw [drawn, Nat.cast_ofNat, div_self two_ne_zero]
  obtain ⟨square, through, wide⟩ := diagonal_reduced high broad ones atGradient applied combined
  obtain ⟨_, bound⟩ := long 4 (by norm_num) Objective.slanted_smooth fun zero => by norm_num [zero] at square
  rw [square] at steep falls bound
  rw [wide] at bound
  subst steep
  -- Any step up to an eighth is low enough, and the last one tried is far below that.
  have reach : diagonal.search.reach 2 along 4 (-25) = 1 / 8 := by
    rw [Armijo.reach_eq, moves.vec_along broad combined, neg_dotProduct_neg, through]
    norm_num [diagonal, Config.search, dotProduct, Fin.sum_univ_two]
  have satisfied : found.exhausted = false :=
    Armijo.satisfied_of_reach Objective.slanted_smooth (by norm_num) (Coords.size_constant 2 1) here atGradient
      (moves.within.slope_eq_along broad applied) (by norm_num) one_pos (by norm_num [diagonal, Config.search])
      (by rw [reach]; norm_num [diagonal, Config.search, Armijo.maxShrinks]) moves.within.search_eq
  refine ⟨s', value, low, reduced, along, found, reached', here, there, moves, satisfied, le_trans ?_ bound, ?_,
    runs Unit .none () 3 nofun⟩
  · norm_num [diagonal]
  · exact falls satisfied

end Downhill.RandomSubspace.Gradient
