import Mathlib
import Downhill.Proofs.Newton.Quadratic

namespace Downhill

/-- A subspace that is the whole space, in coordinates of its own. -/
structure Subspace.Whole (space : Subspace ℝ) (n : Nat) : Prop where
  dimension : space.origin.size = n
  high : space.dim = n
  wide : space.basis.width = n
  regular : (space.basis.mat n n).det ≠ 0

namespace Newton

variable {config : Config ℝ} {f : Objective ℝ} {space : Subspace ℝ} {n : Nat} {s s' r r' : PointState ℝ}

/-- The point of the second state has the coordinates of that of the first. -/
structure Represents (space : Subspace ℝ) (s r : PointState ℝ) : Prop where
  fits : r.point.size = space.dim
  lifted : space.lift r.point = .ok s.point

theorem Represents.size (represents : Represents space s r) (dimension : space.origin.size = n) :
    s.point.size = n := by
  obtain ⟨along, _, added⟩ := Outcome.bind_eq_ok.mp represents.lifted
  exact (Coords.size_combine added).2.trans dimension

theorem Represents.value_eq (represents : Represents space s r) :
    (f.restrict space).value r.point = f.value s.point := by
  simp only [Objective.restrict, represents.lifted, bind, Except.bind]

/-- The Newton direction of the coordinates stands for the Newton direction. -/
theorem embed_direction (whole : space.Whole n) {gradient gradient' d d' : Coords ℝ} {hessian hessian' : Table ℝ}
    (applied : space.basis.apply gradient = .ok gradient') (high : hessian.height = n)
    (high' : hessian'.height = n)
    (product : hessian'.mat n n = space.basis.mat n n * hessian.mat n n * (space.basis.mat n n).transpose)
    (made : direction gradient hessian = .ok d) (made' : direction gradient' hessian' = .ok d') :
    space.embed d' = .ok d := by
  obtain ⟨_, _, _, regular, _⟩ := solve_eq_ok made
  rw [high] at regular
  obtain ⟨dSize, solved⟩ := vec_direction made high
  obtain ⟨dSize', solved'⟩ := vec_direction made' high'
  obtain ⟨along, embedded, size⟩ := space.embed_ok whole.wide (dSize'.trans whole.high.symm)
  have displaced : along.vec n = (space.basis.mat n n).transpose.mulVec (d'.vec n) := by
    rw [Matrix.mulVec_transpose]
    exact Table.vec_combineRows embedded whole.high whole.wide
  -- Both are solved for by regular matrices, and the right sides agree.
  have same : along.vec n = d.vec n := by
    refine Matrix.mulVec_injective_of_det_ne_zero regular
      (Matrix.mulVec_injective_of_det_ne_zero whole.regular ?_)
    calc (space.basis.mat n n).mulVec ((hessian.mat n n).mulVec (along.vec n))
        = (hessian'.mat n n).mulVec (d'.vec n) := by
          rw [displaced, product, Matrix.mulVec_mulVec, Matrix.mulVec_mulVec, Matrix.mul_assoc]
      _ = (space.basis.mat n n).mulVec ((hessian.mat n n).mulVec (d.vec n)) := by
          rw [solved', solved, Matrix.mulVec_neg, Table.vec_apply applied whole.high whole.wide]
  exact Coords.eq_of_vec size dSize same ▸ embedded

/-- The two searches see the same values. -/
theorem Represents.attempt_eq (represents : Represents space s r) (whole : space.Whole n) {d d' : Coords ℝ}
    (embedded : space.embed d' = .ok d) (fits : d'.size = space.dim) (search : Armijo ℝ) (start slope t : ℝ) :
    search.attempt (f.restrict space) r.point d' start slope t = search.attempt f s.point d start slope t := by
  obtain ⟨r', moved, _⟩ := Coords.add_ok represents.fits ((Coords.size_scale d' t).trans fits)
  obtain ⟨y, lifted, moved'⟩ := space.lift_add whole.wide whole.dimension represents.lifted embedded moved
    represents.fits
  simp only [Armijo.attempt, Armijo.candidate, moved, moved', Objective.restrict, lifted, bind, Except.bind]

section

variable {value value' slope slope' : ℝ} {gradient gradient' d d' : Coords ℝ} {hessian hessian' : Table ℝ}
  {found found' : Armijo.Outcome ℝ}

/-- Steps from states that represent each other have the same value, slope and search, and lead to such states
again. -/
theorem Moves.represents (moves : Moves config f s value gradient hessian d slope found s')
    (moves' : Moves config (f.restrict space) r value' gradient' hessian' d' slope' found' r')
    (whole : space.Whole n) (symmetric : f.SymmetricHessians n) (represents : Represents space s r) :
    value' = value ∧ slope' = slope ∧ found' = found ∧ Represents space s' r' := by
  obtain ⟨⟨v, full⟩, atPoint, reduced, applied, same⟩ :
      ∃ all, f.expand s.point = .ok all ∧ ∃ g, space.basis.apply all.2 = .ok g ∧
      (all.1, g) = (value', gradient') := by
    simpa [Objective.restrict, represents.lifted] using moves'.expand_eq
  obtain ⟨rfl, rfl⟩ := Prod.mk.inj same
  obtain ⟨rfl, rfl⟩ := Prod.mk.inj (Except.ok.inj (moves.expand_eq.symm.trans atPoint))
  obtain ⟨H, atHessian, high, across, kept⟩ := symmetric s.point (represents.size whole.dimension)
  obtain rfl := Except.ok.inj (atHessian.symm.trans moves.hessian_eq)
  obtain ⟨R, restricted, high', _, product, _⟩ :=
    Objective.restrict_hessian whole.wide represents.lifted atHessian high across kept
  obtain rfl := Except.ok.inj (restricted.symm.trans moves'.hessian_eq)
  rw [whole.high] at high' product
  have embedded := embed_direction whole applied high high' product moves.direction_eq moves'.direction_eq
  have fits : d'.size = space.dim := (vec_direction moves'.direction_eq high').1.trans whole.high.symm
  obtain rfl : slope = slope' := by
    have size := (vec_direction moves.direction_eq high).1
    have gradientSize := (Coords.dot_eq le_rfl moves.slope_eq).1.trans size
    rw [Subspace.slope_eq_along whole.wide applied embedded moves'.slope_eq,
      (Coords.dot_eq gradientSize.le moves.slope_eq).2]
  obtain rfl : found = found' := by
    have searched := moves'.search_eq
    rw [Armijo.run_congr (represents.attempt_eq whole embedded fits config.search value slope)] at searched
    exact Except.ok.inj (moves.search_eq.symm.trans searched)
  have moved := moves.point_eq
  have moved' := moves'.point_eq
  rw [Coords.advance_eq_add_scale mul_comm] at moved moved'
  obtain ⟨y, lifted, there⟩ :=
    space.lift_add whole.wide whole.dimension represents.lifted embedded moved' represents.fits
  obtain rfl := Except.ok.inj (moved.symm.trans there)
  exact ⟨rfl, rfl, rfl, moves'.size_eq.trans represents.fits, lifted⟩

end

theorem represents_after (symmetric : f.SymmetricHessians n) (whole : space.Whole n) {x y : Coords ℝ}
    (fits : y.size = space.dim) (lifted : space.lift y = .ok x) {k : Nat}
    (reached : method.after config f x () k = .ok (s, ()))
    (reached' : method.after config (f.restrict space) y () k = .ok (r, ())) : Represents space s r := by
  have initial : ∀ s r, (method.start config f x).outcome = .ok s →
      (method.start config (f.restrict space) y).outcome = .ok r → Represents space s r := by
    intro s r started started'
    cases started
    cases started'
    exact ⟨fits, lifted⟩
  have keeps : ∀ (_ _ : Unit) (s r s' r' : PointState ℝ), Represents space s r →
      (step config f s).outcome = .ok s' → (step config (f.restrict space) r).outcome = .ok r' →
      Represents space s' r' := by
    intro _ _ s r s' r' represents made made'
    obtain ⟨_, _, _, _, _, _, moves⟩ := step_eq_ok.mp made
    obtain ⟨_, _, _, _, _, _, moves'⟩ := step_eq_ok.mp made'
    exact (moves.represents moves' whole symmetric represents).2.2.2
  exact Method.after_relates initial keeps reached reached'

/-- The states after the same number of steps have the same coordinates, and the steps from them the same search. -/
theorem steps_alike (symmetric : f.SymmetricHessians n) (whole : space.Whole n) (represents : Represents space s r)
    (made : (step config f s).outcome = .ok s') (made' : (step config (f.restrict space) r).outcome = .ok r') :
    ∃ value slope found gradient gradient' hessian hessian' d d',
      Moves config f s value gradient hessian d slope found s' ∧
        Moves config (f.restrict space) r value gradient' hessian' d' slope found r' := by
  obtain ⟨value, gradient, hessian, d, slope, found, moves⟩ := step_eq_ok.mp made
  obtain ⟨_, gradient', hessian', d', _, _, moves'⟩ := step_eq_ok.mp made'
  obtain ⟨rfl, rfl, rfl, _⟩ := moves.represents moves' whole symmetric represents
  exact ⟨_, _, _, gradient, gradient', hessian, hessian', d, d', moves, moves'⟩

/-- Newton's method on an objective and on its restriction to the whole space in other coordinates, from a
start and its coordinates: as long as both find their directions the states of the one are where those of the
other lead to, with the same values, slopes and searches, and so are their runs. -/
theorem invariant_under_coordinates (config : Config ℝ) (f : Objective ℝ) (space : Subspace ℝ) (x y : Coords ℝ)
    (conforming : f.Conforming x.size) (expands : f.Expands x.size) (symmetric : f.SymmetricHessians x.size)
    (whole : space.Whole x.size) (fits : y.size = x.size) (lifted : space.lift y = .ok x) :
    let g := f.restrict space
    (∀ k, Directed config f x k → Directed config g y k →
      ∃ s r, method.after config f x () k = .ok (s, ()) ∧ method.after config g y () k = .ok (r, ())) ∧
    (∀ k s r, method.after config f x () k = .ok (s, ()) → method.after config g y () k = .ok (r, ()) →
      space.lift r.point = .ok s.point ∧ g.value r.point = f.value s.point ∧
        ∀ s' r', (step config f s).outcome = .ok s' → (step config g r).outcome = .ok r' →
          ∃ value slope found gradient gradient' hessian hessian' d d',
            Moves config f s value gradient hessian d slope found s' ∧
              Moves config g r value gradient' hessian' d' slope found r') ∧
    ∀ (ρ ρ' : Type) (watch : Watch ℝ ρ) (watch' : Watch ℝ ρ') (records : ρ) (records' : ρ') (budget : Nat),
      let ran := (method.run config f watch () records x budget).1
      let ran' := (method.run config g watch' () records' y budget).1
      (∀ summary summary', ran = .ok summary → ran' = .ok summary' →
        summary.iterations = summary'.iterations ∧ space.lift summary'.state.point = .ok summary.state.point ∧
          ∀ j, summary.history.at? History.objectiveName j = summary'.history.at? History.objectiveName j) ∧
      (schema.validate config = .ok () → watch.recorder = none → watch'.recorder = none →
        Directed config f x budget → Directed config g y budget →
          ∃ summary summary', ran = .ok summary ∧ ran' = .ok summary') := by
  intro g
  have inside : y.size = space.dim := fits.trans whole.high.symm
  have high : ∀ z H, z.size = x.size → f.hessian z = .ok H → H.height = x.size := fun z H size =>
    symmetric.height_eq size
  have conforming' : g.Conforming y.size :=
    inside ▸ Objective.restrict_conforming conforming whole.wide whole.dimension
  have expands' : g.Expands y.size := inside ▸ Objective.restrict_expands expands whole.wide whole.dimension
  have high' : ∀ z H, z.size = y.size → g.hessian z = .ok H → H.height = y.size := by
    rw [inside]
    exact fun z H size =>
      (Objective.restrict_symmetricHessians symmetric whole.wide whole.dimension).height_eq size
  refine ⟨fun k directed directed' => ?_, fun k s r reached reached' => ?_,
    fun ρ ρ' watch watch' records records' budget => ⟨fun summary summary' returned returned' => ?_,
      fun valid unrecorded unrecorded' directed directed' => ?_⟩⟩
  · obtain ⟨s, reached⟩ := (after_ok_iff conforming expands high k).mpr directed
    obtain ⟨r, reached'⟩ := (after_ok_iff conforming' expands' high' k).mpr directed'
    exact ⟨s, r, reached, reached'⟩
  · have represents := represents_after symmetric whole inside lifted reached reached'
    exact ⟨represents.lifted, represents.value_eq, fun s' r' => steps_alike symmetric whole represents⟩
  · have result := Method.run_returned returned
    have result' := Method.run_returned returned'
    have same : summary.iterations = summary'.iterations :=
      (result.whole (unfinished config f x)).trans (result'.whole (unfinished config g y)).symm
    obtain ⟨_, last⟩ := result.reached
    obtain ⟨_, last'⟩ := result'.reached
    rw [← same] at last'
    refine ⟨same, (represents_after symmetric whole inside lifted last last').lifted, ?_⟩
    exact result.at?_eq result' same List.mem_cons_self List.mem_cons_self fun i s r _ _ reached reached' =>
      (represents_after symmetric whole inside lifted reached reached').value_eq.symm
  · obtain ⟨summary, returned⟩ := (run_ok_iff conforming expands high valid unrecorded).mpr directed
    obtain ⟨summary', returned'⟩ := (run_ok_iff conforming' expands' high' valid unrecorded').mpr directed'
    exact ⟨summary, summary', returned, returned'⟩

/-- The first direction, and twice that less the second. -/
noncomputable def skew : Table ℝ :=
  .ofFn 2 2 fun i j => if j.val = 0 then (if i.val = 0 then 1 else 2.0) else (if i.val = 0 then 0 else -1)

theorem mat_skew : skew.mat 2 2 = !![1, 0; 2, -1] := by
  rw [skew, Table.mat_ofFn]
  ext i j
  fin_cases i <;> fin_cases j <;> norm_num

theorem skew_whole : Subspace.Whole ⟨.zeros 2, skew⟩ 2 where
  dimension := Coords.size_constant 2 0
  high := Table.height_ofFn 2 2 _
  wide := rfl
  regular := by
    rw [mat_skew, Matrix.det_fin_two_of]
    norm_num

/-- In these coordinates the form is the same once more, although they are not orthogonal. -/
theorem hessian_skew {z : Coords ℝ} (fits : z.size = 2) :
    (Objective.slanted.restrict ⟨.zeros 2, skew⟩).hessian z = .ok .slanted := by
  have inside : z.size = (⟨.zeros 2, skew⟩ : Subspace ℝ).dim := fits.trans skew_whole.high.symm
  obtain ⟨x, lifted, size⟩ := Subspace.lift_ok skew_whole.wide skew_whole.dimension inside
  obtain ⟨R, restricted, high, wide, product, _⟩ := Objective.restrict_hessian (f := .slanted) skew_whole.wide
    lifted rfl Table.height_slanted rfl Table.posDef_slanted.isHermitian
  rw [skew_whole.high] at high wide product
  refine (Table.eq_of_mat high wide Table.height_slanted rfl ?_) ▸ restricted
  rw [product, mat_skew, Table.mat_slanted]
  ext i j
  fin_cases i <;> fin_cases j <;> norm_num [Matrix.mul_apply, Fin.sum_univ_two]

/-- Two steps on a form in two unknowns, with more than half of the promised decrease required. -/
theorem invariant_under_skew :
    let space : Subspace ℝ := ⟨.zeros 2, skew⟩
    let g := Objective.slanted.restrict space
    ∃ x s r summary summary', space.lift (.constant 2 1) = .ok x ∧
      method.after ⟨0.75, 0.5⟩ .slanted x () 2 = .ok (s, ()) ∧
      method.after ⟨0.75, 0.5⟩ g (.constant 2 1) () 2 = .ok (r, ()) ∧ space.lift r.point = .ok s.point ∧
      (method.run ⟨0.75, 0.5⟩ .slanted (.none : Watch ℝ Unit) () () x 2).1 = .ok summary ∧
      (method.run ⟨0.75, 0.5⟩ g (.none : Watch ℝ Unit) () () (.constant 2 1) 2).1 = .ok summary' ∧
      summary.history.at? "func_values" 2 = summary'.history.at? "func_values" 2 := by
  intro space g
  have valid : schema.validate (⟨0.75, 0.5⟩ : Config ℝ) = .ok () := validate_eq_ok.mpr (by norm_num)
  obtain ⟨x, lifted, size⟩ : ∃ x, space.lift (.constant 2 1) = .ok x ∧ x.size = 2 :=
    space.lift_ok skew_whole.wide skew_whole.dimension ((Coords.size_constant 2 1).trans skew_whole.high.symm)
  have conforming : Objective.slanted.Conforming x.size := size.symm ▸ Objective.slanted_conforming
  have restricted : g.Conforming 2 := skew_whole.high ▸
    Objective.restrict_conforming Objective.slanted_conforming skew_whole.wide skew_whole.dimension
  have directed : Directed ⟨0.75, 0.5⟩ .slanted x 2 :=
    directed_of_hessian conforming (fun _ _ => rfl) (Table.height_slanted.trans size.symm) slanted_eliminated 2
  have directed' : Directed ⟨0.75, 0.5⟩ g (.constant 2 1) 2 :=
    directed_of_hessian (x := .constant 2 1) restricted (fun z (fits : z.size = 2) => hessian_skew fits)
      Table.height_slanted slanted_eliminated 2
  obtain ⟨reaches, related, runs⟩ := invariant_under_coordinates ⟨0.75, 0.5⟩ .slanted space x (.constant 2 1)
    conforming (size.symm ▸ Objective.slanted_expands) (size.symm ▸ Objective.slanted_symmetricHessians)
    (size.symm ▸ skew_whole) ((Coords.size_constant 2 1).trans size.symm) lifted
  obtain ⟨s, r, reached, reached'⟩ := reaches 2 directed directed'
  obtain ⟨agree, ends⟩ := runs Unit Unit .none .none () () 2
  obtain ⟨summary, summary', returned, returned'⟩ := ends valid rfl rfl directed directed'
  exact ⟨x, s, r, summary, summary', lifted, reached, reached', (related 2 s r reached reached').1, returned,
    returned', (agree summary summary' returned returned').2.2 2⟩

end Newton

end Downhill
