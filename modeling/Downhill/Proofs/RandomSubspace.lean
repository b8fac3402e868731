import Mathlib
import Downhill.Method.RandomSubspace
import Downhill.Proofs.Ranges
import Downhill.Proofs.Run.Agreement
import Downhill.Proofs.Search.Descent

namespace Downhill.RandomSubspace

theorem start_eq_ok {α : Type} {dim : UInt64} {x : Coords α} {s : PointState α} :
    start dim x = .ok s ↔ x.size = dim.toNat ∧ .initial x = s := by
  unfold start
  split
  · rename_i same
    rw [Except.ok.injEq, and_iff_right same]
  · rename_i differ
    exact iff_of_false nofun fun held => differ held.1

theorem requireShape_eq_ok {α : Type} {rows dim : UInt64} {done : Unit} :
    (requireShape rows dim : Except (Failure α) Unit) = .ok done ↔ 0 < dim ∧ 0 < rows ∧ rows ≤ dim := by
  simp only [requireShape, Outcome.bind_eq_ok, requireNonzero_eq_ok, exists_const]
  refine and_congr_right fun _ => and_congr_right fun _ => ?_
  by_cases less : dim < rows
  · have refused : ¬ rows ≤ dim := UInt64.not_le.mpr less
    simp [less, refused, throw, throwThe, MonadExceptOf.throw]
  · have enough : rows ≤ dim := UInt64.not_lt.mp less
    simp [less, enough]

theorem samples_constant {α : Type} (c : α) (n : Nat) :
    Projection.samples (fun _ : Unit => (c, ())) n () = (Array.replicate n c, ()) := by
  induction n with
  | zero => rfl
  | succ n ih =>
    have step : Projection.samples (fun _ : Unit => (c, ())) (n + 1) () =
        ((Projection.samples (fun _ : Unit => (c, ())) n ()).1.push c, ()) := rfl
    rw [step, ih, Array.replicate_succ]

/-- Whatever is drawn has as many columns as the space has dimensions. -/
theorem Shape.width_draw {α σ : Type} [Scalar α] (shape : Shape) (next : σ → α × σ) (source : σ) :
    (shape.draw next source).1.width = shape.dim.toNat := by
  unfold draw
  split <;> rfl

variable {α : Type} [Scalar α] {f : Objective α} {basis : Table α} {s s' : PointState α}

theorem moved_eq_ok {space : Subspace α} {d : Coords α} {t : α} : moved s space d t = .ok s' ↔
    ∃ along, space.embed d = .ok along ∧ s.point.add (along.scale t) = .ok s'.point ∧
      s'.finished = s.finished := by
  simp only [moved, Outcome.bind_eq_ok, Outcome.pure_eq_ok]
  constructor
  · rintro ⟨along, atAlong, point, atPoint, rfl⟩
    exact ⟨along, atAlong, atPoint, rfl⟩
  · rintro ⟨along, atAlong, atPoint, same⟩
    refine ⟨along, atAlong, s'.point, atPoint, ?_⟩
    rw [← same]

/-- The search in the subspace through the point of a state, and the move it leads to. -/
theorem searched_moved {search : Armijo α} {start : α} {gradient d : Coords α} :
    (∃ found, (search.runWithin f ⟨s.point, basis⟩ start gradient d).outcome = .ok found ∧
        moved s ⟨s.point, basis⟩ d found.step = .ok s') ↔
      ∃ along slope found, search.Within f ⟨s.point, basis⟩ start gradient d along slope found s'.point ∧
        s'.finished = s.finished := by
  constructor
  · rintro ⟨found, searched, moves⟩
    obtain ⟨along, slope, atAlong, atSlope, ended⟩ := Armijo.runWithin_eq_ok.mp searched
    obtain ⟨_, same, atPoint, finished⟩ := moved_eq_ok.mp moves
    obtain rfl := Except.ok.inj (atAlong.symm.trans same)
    exact ⟨along, slope, found, ⟨atAlong, atSlope, ended, atPoint⟩, finished⟩
  · rintro ⟨along, slope, found, within, finished⟩
    exact ⟨found, Armijo.runWithin_eq_ok.mpr ⟨along, slope, within.embed_eq, within.slope_eq,
      within.search_eq⟩, moved_eq_ok.mpr ⟨along, within.embed_eq, within.point_eq, finished⟩⟩

namespace Gradient

variable {config : Config α}

theorem validate_eq_ok : schema.validate config = .ok () ↔
    (Scalar.isFinite config.initial = true ∧ 0 < config.initial) ∧
      (0 < config.dim ∧ 0 < config.rows ∧ config.rows ≤ config.dim) ∧
      (0 < config.alpha ∧ config.alpha < 1) ∧ 0 < config.beta ∧ config.beta < 1 := by
  simp [schema, requireShape_eq_ok]

/-- A step along the steepest descent of the subspace. -/
structure Moves (config : Config α) (f : Objective α) (basis : Table α) (s : PointState α) (value : α)
    (gradient along : Coords α) (slope : α) (found : Armijo.Outcome α) (s' : PointState α) : Prop where
  expand_eq : (f.restrict ⟨s.point, basis⟩).expand (.zeros basis.height) = .ok (value, gradient)
  within : config.search.Within f ⟨s.point, basis⟩ value gradient (direction gradient) along slope found
    s'.point
  finished_eq : s'.finished = s.finished

theorem step_eq_ok : (step config f basis s).outcome = .ok s' ↔ ∃ value gradient along slope found,
    Moves config f basis s value gradient along slope found s' := by
  simp only [step, Work.outcome_bind_eq_ok, Work.outcome_checked_eq_ok, Work.outcome_note_bind, Prod.exists,
    searched_moved]
  constructor
  · rintro ⟨value, gradient, atExpand, along, slope, found, within, finished⟩
    exact ⟨value, gradient, along, slope, found, atExpand, within, finished⟩
  · rintro ⟨value, gradient, along, slope, found, moves⟩
    exact ⟨value, gradient, moves.expand_eq, along, slope, found, moves.within, moves.finished_eq⟩

/-- Whatever the basis, a step on a conforming objective does not fail. -/
theorem step_ok {n : Nat} (conforming : f.Conforming n) (expands : f.Expands n) (wide : basis.width = n)
    (fits : s.point.size = n) : ∃ s', (step config f basis s).outcome = .ok s' := by
  let space : Subspace α := ⟨s.point, basis⟩
  have restricted : (f.restrict space).Conforming space.dim :=
    Objective.restrict_conforming conforming wide fits
  obtain ⟨value, gradient, _, _, size, expanded⟩ :=
    restricted.expand_ok (Objective.restrict_expands expands wide fits) (Coords.size_constant _ _)
  have along : (direction gradient).size = space.dim := (Coords.size_neg gradient).trans size
  obtain ⟨displacement, slope, found, y, within⟩ :=
    Armijo.within_ok conforming wide fits size along config.search value
  exact ⟨{ s with point := y },
    step_eq_ok.mpr ⟨value, gradient, displacement, slope, found, expanded, within, rfl⟩⟩

end Gradient

namespace Newton

variable {config : Config α}

theorem validate_eq_ok : schema.validate config = .ok () ↔
    (0 < config.dim ∧ 0 < config.rows ∧ config.rows ≤ config.dim) ∧
      (0 < config.alpha ∧ config.alpha < 1) ∧ 0 < config.beta ∧ config.beta < 1 := by
  simp [schema, requireShape_eq_ok]

/-- A step along the Newton direction of the subspace. -/
structure Moves (config : Config α) (f : Objective α) (basis : Table α) (s : PointState α) (value : α)
    (gradient : Coords α) (hessian : Table α) (d along : Coords α) (slope : α) (found : Armijo.Outcome α)
    (s' : PointState α) : Prop where
  expand_eq : (f.restrict ⟨s.point, basis⟩).expand (.zeros basis.height) = .ok (value, gradient)
  hessian_eq : (f.restrict ⟨s.point, basis⟩).hessian (.zeros basis.height) = .ok hessian
  direction_eq : direction gradient hessian = .ok d
  within : config.search.Within f ⟨s.point, basis⟩ value gradient d along slope found s'.point
  finished_eq : s'.finished = s.finished

theorem step_eq_ok : (step config f basis s).outcome = .ok s' ↔
    ∃ value gradient hessian d along slope found,
      Moves config f basis s value gradient hessian d along slope found s' := by
  simp only [step, Work.outcome_bind_eq_ok, Work.outcome_checked_eq_ok, Work.outcome_except_eq_ok,
    Prod.exists, searched_moved]
  constructor
  · rintro ⟨value, gradient, atExpand, hessian, atHessian, d, atDirection, along, slope, found, within,
      finished⟩
    exact ⟨value, gradient, hessian, d, along, slope, found, atExpand, atHessian, atDirection, within,
      finished⟩
  · rintro ⟨value, gradient, hessian, d, along, slope, found, moves⟩
    exact ⟨value, gradient, moves.expand_eq, hessian, moves.hessian_eq, d, moves.direction_eq, along, slope,
      found, moves.within, moves.finished_eq⟩

theorem unfinished {σ : Type} (next : σ → α × σ) (config : Config α) (f : Objective α) (x : Coords α) (source : σ) :
    ∀ k, (method next).finishedAfter config f x source k = false := by
  refine Method.unfinished_of_keeps (fun s started => ?_) fun _ s s' made => ?_
  · obtain ⟨_, rfl⟩ := start_eq_ok.mp (Work.outcome_except_eq_ok.mp started)
    rfl
  · obtain ⟨_, _, _, _, _, _, _, moves⟩ := step_eq_ok.mp made
    exact moves.finished_eq

end Newton

/-- Where all samples are the same, so are the entries of the basis. -/
theorem Shape.mat_draw_constant {shape : Shape} (mode : shape.mode = .random) (c : ℝ) {m n : Nat}
    (rows : shape.rows.toNat = m) (dim : shape.dim.toNat = n) :
    (shape.draw (fun _ : Unit => (c, ())) ()).1.height = m ∧
      (shape.draw (fun _ : Unit => (c, ())) ()).1.mat m n = Matrix.of fun _ _ => c / n := by
  subst rows dim
  rw [draw, mode]
  refine ⟨Table.height_ofFn _ _ _, ?_⟩
  change (Table.ofFn _ _ _).mat _ _ = _
  rw [Table.mat_ofFn]
  ext i j
  simp only [Matrix.of_apply, samples_constant, Array.getElem_replicate]

end Downhill.RandomSubspace
