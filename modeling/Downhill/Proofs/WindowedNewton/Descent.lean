import Downhill.Proofs.Affine
import Downhill.Proofs.Search.SmoothDescent
import Downhill.Proofs.WindowedNewton.Regularization
import Downhill.Proofs.WindowedNewton.Window

namespace Downhill.WindowedNewton

theorem validate_eq_ok {config : Config ℝ} : schema.validate config = .ok () ↔
    (2 ≤ config.rows.toNat ∧ config.rows.toNat % 2 = 0) ∧ 0 < config.threshold ∧
      (0 < config.alpha ∧ config.alpha < 1) ∧ 0 < config.beta ∧ config.beta < 1 := by
  simp [schema, requireEvenRows_eq_ok]

variable {config : Config ℝ} {f : Objective ℝ} {s s' : State ℝ} {n : Nat}

section

variable {window : Table ℝ} {x gradient : Coords ℝ}

/-- The gradient is a row of the window. -/
theorem gradient_mem_window {old : Option (Table ℝ)} (extended : extend config old x gradient = .ok window) :
    ∃ i, window.mat window.height n i = gradient.vec n := by
  have rows := (extend_rows extended).2
  have height : window.height = (keptRows config (rowsOf old)).length + 2 := by
    have length := congrArg List.length rows
    rwa [Array.length_toList, List.length_append] at length
  refine ⟨⟨(keptRows config (rowsOf old)).length + 1, by omega⟩, ?_⟩
  have last : window.rows[(keptRows config (rowsOf old)).length + 1]? = some gradient := by
    rw [← Array.getElem?_toList, rows]
    simp
  exact Table.mat_of_row last

/-- So the gradient on the span vanishes only with the gradient. -/
theorem reduced_ne_zero_iff {old : Option (Table ℝ)} {reduced : Coords ℝ}
    (extended : extend config old x gradient = .ok window) (wide : window.width = n)
    (applied : window.apply gradient = .ok reduced) :
    reduced.vec window.height ≠ 0 ↔ gradient.vec n ≠ 0 := by
  have product := Table.vec_apply applied rfl wide
  refine not_congr ⟨fun zero => ?_, fun zero => by rw [product, zero, Matrix.mulVec_zero]⟩
  obtain ⟨i, row⟩ := gradient_mem_window (n := n) extended
  have square : gradient.vec n ⬝ᵥ gradient.vec n = 0 := by
    rw [zero] at product
    have entry := (congrFun product i).symm
    rwa [Matrix.mulVec, row] at entry
  exact dotProduct_self_eq_zero.mp square

end

/-- What a step computes before it chooses a direction: on an objective with symmetric Hessians the Hessian
on the span of the window, and its spectrum. -/
structure Surveyed (config : Config ℝ) (f : Objective ℝ) (n : Nat) (s : State ℝ) (value : ℝ)
    (gradient : Coords ℝ) (window H full : Table ℝ) (spectrum : Spectrum ℝ) : Prop where
  value_eq : f.value s.point = .ok value
  gradient_eq : f.gradient s.point = .ok gradient
  extend_eq : extend config s.window s.point gradient = .ok window
  hessian_eq : f.hessian s.point = .ok H
  full_eq : (f.restrict ⟨s.point, window⟩).hessian (.zeros window.height) = .ok full
  high : full.height = window.height
  wide : full.width = window.height
  product : full.mat window.height window.height =
    window.mat window.height n * H.mat n n * (window.mat window.height n).transpose
  symmetric : (full.mat window.height window.height).IsSymm
  spectrum_eq : full.spectrum = .ok spectrum

/-- Nothing in front of the direction fails. -/
theorem surveyed_ok (config : Config ℝ) (conforming : f.Conforming n) (expands : f.Expands n)
    (symmetric : f.SymmetricHessians n) (sized : Sized n s) :
    ∃ value gradient window H full spectrum, Surveyed config f n s value gradient window H full spectrum := by
  obtain ⟨value, gradient, atValue, atGradient, gSize, _⟩ := conforming.expand_ok expands sized.point
  obtain ⟨window, extended⟩ := extend_ok config (gSize.trans sized.point.symm)
    fun old same => (sized.window old same).trans sized.point.symm
  let span : Subspace ℝ := ⟨s.point, window⟩
  have wide : span.basis.width = n := (extend_rows extended).1.trans sized.point
  obtain ⟨H, atHessian, high, across, plain⟩ := symmetric s.point sized.point
  obtain ⟨full, atFull, tall, broad, product, kept⟩ :=
    Objective.restrict_hessian wide (Subspace.lift_zeros wide sized.point) atHessian high across plain
  obtain ⟨spectrum, _, found, _⟩ := regularize_of_isSymm config tall broad kept
  exact ⟨value, gradient, window, H, full, spectrum, atValue, atGradient, extended, atHessian, atFull, tall, broad,
    product, kept, found⟩

section

variable {value : ℝ} {gradient : Coords ℝ} {window H full : Table ℝ} {spectrum : Spectrum ℝ}

/-- Where the spectrum has settled, and the threshold is above what that leaves open, the raised Hessian is
positive definite. -/
theorem Surveyed.regularize_posDef (surveyed : Surveyed config f n s value gradient window H full spectrum)
    (settled : spectrum.settled = true)
    (clear : √2 * (1e-14 * max Scalar.smallestNormal
      (√(∑ i, ∑ j, full.mat window.height window.height i j ^ 2))) < config.threshold) :
    ∃ hessian, regularize config full = .ok hessian ∧ hessian.height = window.height ∧
      hessian.width = window.height ∧ (hessian.mat window.height window.height).PosDef := by
  obtain ⟨found, hessian, atSpectrum, raised, tall, broad, kept, bound⟩ :=
    regularize_of_isSymm config surveyed.high surveyed.wide surveyed.symmetric
  obtain rfl := Except.ok.inj (atSpectrum.symm.trans surveyed.spectrum_eq)
  refine ⟨hessian, raised, tall, broad, .of_dotProduct_mulVec_pos ?_ fun y nonzero => ?_⟩
  · exact (Matrix.conjTranspose_eq_transpose_of_trivial _).trans kept.eq
  · have length : 0 < y ⬝ᵥ y :=
      (dotProduct_self_star_nonneg y).lt_of_ne' (mt dotProduct_self_eq_zero.mp nonzero)
    rw [star_trivial]
    exact (mul_pos (sub_pos.mpr clear) length).trans_le (bound settled y)

/-- And then the step is made, along the solution of the system with the raised Hessian, which the triangular
factors give. -/
theorem Surveyed.moves (surveyed : Surveyed config f n s value gradient window H full spectrum)
    (conforming : f.Conforming n) (expands : f.Expands n) (sized : Sized n s) {hessian : Table ℝ}
    (raised : regularize config full = .ok hessian) (tall : hessian.height = window.height)
    (broad : hessian.width = window.height) (definite : (hessian.mat window.height window.height).PosDef) :
    ∃ reduced C d along slope found s',
      Moves config f s value gradient window reduced full hessian d along slope found s' ∧
      hessian.cholesky = some C ∧ C.solve reduced.neg = .ok d ∧ d.size = window.height ∧
      (hessian.mat window.height window.height).mulVec (d.vec window.height) = -reduced.vec window.height := by
  let span : Subspace ℝ := ⟨s.point, window⟩
  have wide : span.basis.width = n := (extend_rows surveyed.extend_eq).1.trans sized.point
  have size := conforming.size_gradient sized.point surveyed.gradient_eq
  obtain ⟨reduced, applied, reducedSize⟩ := Table.apply_ok (wide.trans size.symm)
  obtain ⟨C, factored, solves⟩ := Table.cholesky_of_posDef tall broad definite
  obtain ⟨d, solved, dSize, product⟩ := solves reduced.neg ((Coords.size_neg reduced).trans reducedSize)
  rw [Coords.vec_neg] at product
  have chosen : (direction reduced hessian).outcome = .ok d := by
    rw [direction, solveDefinite_of_cholesky factored, Work.outcome_checked_eq_ok, solved]
  obtain ⟨along, slope, found, y, within⟩ := Armijo.within_ok conforming wide sized.point
    reducedSize dSize config.search value
  exact ⟨reduced, C, d, along, slope, found, { s with point := y, window := some window },
    ⟨expands s.point value gradient sized.point surveyed.value_eq surveyed.gradient_eq, surveyed.extend_eq, applied,
      surveyed.full_eq, raised, chosen, within, rfl, rfl⟩, factored, solved, dSize, product⟩

end

/-- A step with triangular factors notes nothing of the general solver. -/
theorem Moves.fallback_notMem {value : ℝ} {gradient reduced d along : Coords ℝ} {window full hessian : Table ℝ}
    {slope : ℝ} {found : Armijo.Outcome ℝ} {C : Cholesky ℝ hessian.height}
    (moves : Moves config f s value gradient window reduced full hessian d along slope found s')
    (factored : hessian.cholesky = some C) (system : String) :
    Event.fallback system ∉ (step config f s).events := by
  have quiet : (direction reduced hessian).events = [] := by
    rw [direction, solveDefinite_of_cholesky factored, Work.events_checked]
  simp [step, Work.mem_events_bind, moves.expand_eq, moves.extend_eq, moves.reduced_eq, moves.full_eq,
    moves.regularize_eq, quiet, Armijo.runWithin, Armijo.fallback_notMem_run]

/-- Where the spectrum of the Hessian on the window has settled, and the threshold is above what that leaves
open, the raised Hessian is positive definite and factored; the slope is negative exactly where the gradient
is not zero, and the objective falls unless the search is exhausted. -/
theorem descends_where_settled (config : Config ℝ) (f : Objective ℝ) (x : Coords ℝ) (k : Nat) (s : State ℝ)
    (valid : schema.validate config = .ok ()) (conforming : f.Conforming x.size) (expands : f.Expands x.size)
    (symmetric : f.SymmetricHessians x.size) (reached : method.after config f x () k = .ok (s, ())) :
    let n := x.size
    ∃ value gradient window H full spectrum,
      Surveyed config f n s value gradient window H full spectrum ∧
      let m := window.height
      (spectrum.settled = true →
        √2 * (1e-14 * max Scalar.smallestNormal (√(∑ i, ∑ j, full.mat m m i j ^ 2))) < config.threshold →
        ∃ reduced hessian C d along slope found s',
          Moves config f s value gradient window reduced full hessian d along slope found s' ∧
          (step config f s).outcome = .ok s' ∧ (hessian.mat m m).PosDef ∧ hessian.cholesky = some C ∧
          C.solve reduced.neg = .ok d ∧ (∀ system, Event.fallback system ∉ (step config f s).events) ∧
          slope ≤ 0 ∧ (slope < 0 ↔ gradient.vec n ≠ 0) ∧
          (found.exhausted = false → ∃ after, f.value s'.point = .ok after ∧ after ≤ value ∧
            (gradient.vec n ≠ 0 → after < value))) := by
  intro n
  have sized := sized_of_after reached
  obtain ⟨value, gradient, window, H, full, spectrum, surveyed⟩ :=
    surveyed_ok config conforming expands symmetric sized
  refine ⟨value, gradient, window, H, full, spectrum, surveyed, fun settled clear => ?_⟩
  obtain ⟨hessian, raised, tall, broad, definite⟩ := surveyed.regularize_posDef settled clear
  obtain ⟨reduced, C, d, along, slope, found, s', moves, factored, solved, _, product⟩ :=
    surveyed.moves conforming expands sized raised tall broad definite
  have within := moves.within
  have wide : window.width = n := (extend_rows surveyed.extend_eq).1.trans sized.point
  have slope_eq := (Coords.dot_eq (Table.size_apply moves.reduced_eq).2.le within.slope_eq).2
  obtain ⟨below, strictly⟩ := descends_of_posDef definite product
  rw [← slope_eq] at below strictly
  have descends := strictly.trans (reduced_ne_zero_iff surveyed.extend_eq wide moves.reduced_eq)
  refine ⟨reduced, hessian, C, d, along, slope, found, s', moves, ?_, definite, factored, solved,
    moves.fallback_notMem factored, below, descends, fun satisfied => ?_⟩
  · exact step_eq_ok.mpr ⟨value, gradient, window, reduced, full, hessian, d, along, slope, found, moves⟩
  · obtain ⟨_, _, ⟨fraction, _⟩, factor, _⟩ := validate_eq_ok.mp valid
    obtain ⟨level, falls⟩ := Armijo.value_le_of_run one_pos factor fraction within.search_eq
      satisfied below
    exact ⟨found.value, within.testedLast.value_eq, level, fun nonzero => falls (descends.mpr nonzero)⟩

/-- A window of two pairs, and eigenvalues of one at least. -/
noncomputable def gentle : Config ℝ :=
  ⟨4, 1, 0.1, 0.5⟩

theorem validate_gentle : schema.validate gentle = .ok () :=
  validate_eq_ok.mpr ⟨by decide, by norm_num [gentle]⟩

/-- Half the form that falls along one of the diagonals. -/
noncomputable def saddled : Objective ℝ :=
  .quadratic saddle (.zeros 2)

theorem saddled_symmetricHessians : saddled.SymmetricHessians 2 :=
  (Objective.quadratic_constantHessian (.zeros 2) height_saddle rfl).symmetricHessians isSymm_saddle

theorem saddled_smooth : saddled.Smooth 3 2 := by
  refine Objective.quadratic_smooth height_saddle rfl isSymm_saddle fun d => ?_
  rw [mat_saddle]
  simp only [dotProduct, Matrix.mulVec, Fin.sum_univ_two, Matrix.of_apply, Matrix.cons_val', Matrix.cons_val_zero,
    Matrix.cons_val_one, Matrix.cons_val_fin_one]
  nlinarith [sq_nonneg (d 0 - d 1)]

section

variable {value slope : ℝ} {gradient reduced d along : Coords ℝ} {window H full hessian : Table ℝ}
  {spectrum : Spectrum ℝ} {found : Armijo.Outcome ℝ}

/-- The first window holds the start and the gradient there, and the Hessian on their span is indefinite. -/
theorem Surveyed.of_saddled
    (surveyed : Surveyed gentle saddled 2 ⟨.ofFn ![1, 0], none, false⟩ value gradient window H full spectrum) :
    gradient.vec 2 = ![1, 2] ∧ window.height = 2 ∧ window.mat 2 2 = !![1, 0; 1, 2] ∧
      full.mat 2 2 = !![1, 5; 5, 13] := by
  have slopes : gradient.vec 2 = ![1, 2] := by
    rw [Objective.quadratic_gradients height_saddle rfl surveyed.gradient_eq, mat_saddle, Coords.vec_ofFn,
      Coords.vec_zeros, sub_zero]
    funext i
    fin_cases i <;> norm_num [Matrix.mulVec, dotProduct, Fin.sum_univ_two]
  have rows : window.rows = #[.ofFn ![1, 0], gradient] := Array.toList_inj.mp (extend_rows surveyed.extend_eq).2
  have height : window.height = 2 := congrArg Array.size rows
  have corners : window.mat 2 2 = !![1, 0; 1, 2] := by
    refine funext (Fin.forall_fin_two.mpr ⟨?_, ?_⟩)
    · exact (Table.mat_of_row (rows ▸ rfl)).trans (Coords.vec_ofFn _)
    · exact (Table.mat_of_row (rows ▸ rfl)).trans slopes
  have product := surveyed.product
  obtain rfl : saddle = H := Except.ok.inj surveyed.hessian_eq
  rw [height, corners, mat_saddle] at product
  refine ⟨slopes, height, corners, product.trans ?_⟩
  ext i j
  fin_cases i <;> fin_cases j <;> norm_num [Matrix.mul_apply, Fin.sum_univ_two]

/-- Down the solution of a system whose form is at least half the squared length a step is low enough long
before the search is exhausted. -/
theorem Surveyed.satisfied_of_saddled
    (surveyed : Surveyed gentle saddled 2 ⟨.ofFn ![1, 0], none, false⟩ value gradient window H full spectrum)
    (moves : Moves gentle saddled ⟨.ofFn ![1, 0], none, false⟩ value gradient window reduced full hessian d
      along slope found s')
    (product : (hessian.mat 2 2).mulVec (d.vec 2) = -reduced.vec 2)
    (form : ∀ y, 1 / 2 * (y ⬝ᵥ y) ≤ y ⬝ᵥ (hessian.mat 2 2).mulVec y) (descends : slope < 0) :
    found.exhausted = false := by
  obtain ⟨_, height, corners, _⟩ := surveyed.of_saddled
  have wide : window.width = 2 := (extend_rows surveyed.extend_eq).1
  have steep : slope = gradient.vec 2 ⬝ᵥ along.vec 2 := moves.within.slope_eq_along wide moves.reduced_eq
  have slope_eq : slope = -(d.vec 2 ⬝ᵥ (hessian.mat 2 2).mulVec (d.vec 2)) := by
    have size : reduced.size ≤ 2 := ((Table.size_apply moves.reduced_eq).2.trans height).le
    rw [(Coords.dot_eq size moves.within.slope_eq).2, product, dotProduct_neg, neg_neg, dotProduct_comm]
  have along_eq : along.vec 2 = ![d.vec 2 0 + d.vec 2 1, 2 * d.vec 2 1] := by
    rw [Table.vec_combineRows moves.within.embed_eq height wide, corners]
    funext i
    fin_cases i <;> norm_num [Matrix.vecMul, dotProduct, Fin.sum_univ_two, mul_comm]
  have short : along.vec 2 ⬝ᵥ along.vec 2 ≤ 6 * (d.vec 2 ⬝ᵥ d.vec 2) := by
    rw [along_eq]
    norm_num [dotProduct, Fin.sum_univ_two]
    nlinarith [sq_nonneg (d.vec 2 0 - d.vec 2 1), sq_nonneg (d.vec 2 0)]
  have curved := Armijo.curved_of_slope three_pos steep descends
  refine Armijo.satisfied_of_reach saddled_smooth three_pos rfl surveyed.value_eq surveyed.gradient_eq steep
    descends one_pos (by norm_num [gentle, Config.search]) ?_ moves.within.search_eq
  rw [Armijo.reach_eq, le_div_iff₀ curved]
  have last : gentle.search.initial * gentle.search.factor ^ Armijo.maxShrinks ≤ 1 / 100 := by
    norm_num [gentle, Config.search, Armijo.maxShrinks]
  have rise := form (d.vec 2)
  calc _ ≤ 1 / 100 * (3 * (along.vec 2 ⬝ᵥ along.vec 2)) := mul_le_mul_of_nonneg_right last curved.le
    _ ≤ 9 / 5 * -slope := by linarith
    _ = 2 * (1 - gentle.search.fraction) * -slope := by norm_num [gentle, Config.search]

/-- The step from the first axis: the Hessian on the span is indefinite and is raised, and the objective falls. -/
theorem descends_where_settled_saddle :
    ∃ (s' : State ℝ) (before after : ℝ) (gradient : Coords ℝ) (window H full raised : Table ℝ)
    (spectrum : Spectrum ℝ),
      Surveyed gentle saddled 2 ⟨.ofFn ![1, 0], none, false⟩ before gradient window H full spectrum ∧
      full.mat 2 2 = !![1, 5; 5, 13] ∧ spectrum.settled = true ∧ regularize gentle full = .ok raised ∧
      (raised.mat 2 2).PosDef ∧ (step gentle saddled ⟨.ofFn ![1, 0], none, false⟩).outcome = .ok s' ∧
      (∀ system, .fallback system ∉ (step gentle saddled ⟨.ofFn ![1, 0], none, false⟩).events) ∧
      saddled.value s'.point = .ok after ∧ after < before := by
  obtain ⟨value, gradient, window, H, full, spectrum, surveyed, descends⟩ :=
    descends_where_settled gentle saddled (.ofFn ![1, 0]) 0 ⟨.ofFn ![1, 0], none, false⟩ validate_gentle
      (Objective.quadratic_conforming height_saddle rfl (Coords.size_constant 2 _))
      (Objective.quadratic_expands saddle (.zeros 2) 2) saddled_symmetricHessians
      (Method.after_zero_eq_ok.mpr ⟨rfl, rfl⟩)
  have surveyed : Surveyed gentle saddled 2 _ value gradient window H full spectrum := surveyed
  obtain ⟨slopes, height, _, entries⟩ := surveyed.of_saddled
  have high := surveyed.high.trans height
  have wide := surveyed.wide.trans height
  have symmetric := surveyed.symmetric
  rw [height] at symmetric
  have settled : spectrum.settled = true :=
    settled_of_beside high wide symmetric (by norm_num [entries]) surveyed.spectrum_eq
  have slack := slack_le_half (A := full) (n := 2) (by norm_num [entries, Fin.sum_univ_two])
  obtain ⟨_, raised, atSpectrum, made, tall, broad, _, lifted⟩ := regularize_of_isSymm gentle high wide symmetric
  obtain rfl := Except.ok.inj (atSpectrum.symm.trans surveyed.spectrum_eq)
  obtain ⟨reduced, hessian, C, d, along, slope, found, s', moves, stepped, definite, factored, solved, quiet, _,
    steep, falls⟩ := descends settled (by rw [height]; exact slack.trans_lt (by norm_num [gentle]))
  obtain rfl := Except.ok.inj (made.symm.trans moves.regularize_eq)
  rw [height] at definite
  have down : slope < 0 := steep.mpr fun zero => one_ne_zero (congrFun (slopes.symm.trans zero) 0)
  have form : ∀ y, 1 / 2 * (y ⬝ᵥ y) ≤ y ⬝ᵥ (raised.mat 2 2).mulVec y := by
    intro y
    have length : 0 ≤ y ⬝ᵥ y := dotProduct_self_star_nonneg y
    have one : gentle.threshold = 1 := rfl
    refine le_trans (mul_le_mul_of_nonneg_right ?_ length) (lifted settled y)
    rw [one]
    linarith
  have product : (raised.mat 2 2).mulVec (d.vec 2) = -reduced.vec 2 := by
    have size : reduced.neg.size = 2 :=
      (Coords.size_neg reduced).trans ((Table.size_apply moves.reduced_eq).2.trans height)
    exact (Table.mulVec_of_cholesky tall broad definite factored size solved).trans (Coords.vec_neg reduced 2)
  obtain ⟨after, there, _, lower⟩ := falls (surveyed.satisfied_of_saddled moves product form down)
  exact ⟨s', value, after, gradient, window, H, full, raised, _, surveyed, entries, settled, made, definite,
    stepped, quiet, there, lower (steep.mp down)⟩

end

end Downhill.WindowedNewton
