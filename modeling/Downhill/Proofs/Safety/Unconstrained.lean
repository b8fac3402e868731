import Downhill.Proofs.Acceleration
import Downhill.Proofs.GradientDescent
import Downhill.Proofs.Newton
import Downhill.Proofs.RandomSubspace
import Downhill.Proofs.Run.Safety
import Downhill.Proofs.WindowedNewton.Window

namespace Downhill

variable {α : Type} [Scalar α] {f : Objective α} {n : Nat} {x : Coords α}

theorem GradientDescent.guarded (complete : f.Complete n) (size : x.size = n) (config : Config α) :
    method.Guarded config f x (fun s => s.point.size = n) (fun _ => False) fun _ => False where
  start := Work.ends_pure size
  step _ s fits := by
    obtain ⟨s', made, kept, _⟩ := step_ok config complete.toConforming fits
    exact Work.ends_checked ⟨s', made, kept⟩
  tracked _ fits := measured complete.toConforming fits

theorem Acceleration.guarded (complete : f.Complete n) (size : x.size = n) (config : Config α) :
    method.Guarded config f x (Sized n) (fun _ => False) fun _ => False where
  start := Work.ends_pure ⟨size, size⟩
  step _ s sized := by
    obtain ⟨gradient, s', atGradient, moves, kept⟩ := sized.step_ok complete.toConforming config
    exact Work.ends_ok ⟨s', step_eq_ok.mpr ⟨gradient, atGradient, moves⟩, kept⟩
  tracked _ sized := Method.measured_gradient complete.toConforming rfl rfl sized.point

namespace Newton

variable {config : Config α} {s : PointState α}

theorem step_ends (complete : f.Complete n) (fits : s.point.size = n) :
    (step config f s).Ends (fun s' => s'.point.size = n) fun why => why = .singularSystem "Newton direction" := by
  unfold step
  refine (Work.ends_checked (complete.expand s.point fits)).bind fun (value, gradient) gSize => ?_
  refine (Work.ends_checked (complete.hessian s.point fits)).bind fun hessian ⟨high, _⟩ => ?_
  refine (solve_ends high ((Coords.size_neg gradient).trans gSize) _).bind fun d dSize => ?_
  refine (Work.ends_found (Coords.dot_ok gSize dSize)).bind fun slope _ => ?_
  have searched := Armijo.run_ok complete.toConforming fits dSize config.search value slope
  refine (Work.ends_some searched).bind fun found _ => ?_
  refine (Work.ends_note _).bind fun _ _ => ?_
  exact (Work.ends_checked (Coords.advance_ok fits dSize found.step)).bind fun y size => Work.ends_pure size

theorem guarded (complete : f.Complete n) (size : x.size = n) (config : Config α) :
    method.Guarded config f x (fun s => s.point.size = n) (fun _ => False)
      fun why => why = .singularSystem "Newton direction" where
  start := Work.ends_pure size
  step _ _ fits := step_ends complete fits
  tracked _ fits := measured complete.toConforming fits

end Newton

namespace WindowedNewton

variable {config : Config α} {s : State α} {A : Table α}

theorem regularize_shaped (config : Config α) (square : A.Shaped n n) :
    ∃ raised, regularize config A = .ok raised ∧ raised.Shaped n n := by
  obtain ⟨spectrum, found⟩ := square.spectrum_ok
  simp only [regularize, found, bind, Except.bind, pure, Except.pure]
  split
  · exact ⟨A, rfl, square⟩
  · split
    · obtain ⟨rfl, same⟩ := square
      exact ⟨_, rfl, Table.height_ofFn _ _ _, same⟩
    · exact ⟨A, rfl, square⟩

omit [Scalar α] in
theorem extend_sized (config : Config α) (sized : Sized n s) {gradient : Coords α} (size : gradient.size = n) :
    ∃ window, extend config s.window s.point gradient = .ok window ∧ window.width = n := by
  obtain ⟨window, extended⟩ := extend_ok config (size.trans sized.point.symm)
    fun old present => (sized.window old present).trans sized.point.symm
  exact ⟨window, extended, (extend_rows extended).1.trans sized.point⟩

theorem step_ends (complete : f.Complete n) (sized : Sized n s) :
    (step config f s).Ends (Sized n) fun why => why = .singularSystem "limited-memory Newton direction" := by
  unfold step
  refine (Work.ends_checked (complete.expand s.point sized.point)).bind fun (value, gradient) gSize => ?_
  refine (Work.ends_except (extend_sized config sized gSize)).bind fun window wide => ?_
  let span : Subspace α := ⟨s.point, window⟩
  have broad : span.basis.width = n := wide
  have within : (f.restrict span).Complete span.dim := Objective.restrict_complete complete broad sized.point
  refine (Work.ends_checked (Table.apply_ok (wide.trans gSize.symm))).bind fun reduced rSize => ?_
  refine (Work.ends_checked (within.hessian _ (Coords.size_constant _ _))).bind fun full ⟨high, across⟩ => ?_
  refine (Work.ends_checked (regularize_shaped config ⟨high, across⟩)).bind fun hessian shaped => ?_
  refine (solveDefinite_ends shaped.high ((Coords.size_neg reduced).trans rSize) _).bind fun d dSize => ?_
  have searched := Armijo.runWithin_ok complete.toConforming broad sized.point rSize dSize config.search value
  refine (Work.ends_some searched).bind fun found _ => ?_
  refine (Work.ends_checked (span.embed_ok broad dSize)).bind fun along aSize => ?_
  have moved := Coords.add_ok sized.point ((Coords.size_scale along found.step).trans aSize)
  refine (Work.ends_checked moved).bind fun y size => Work.ends_pure ⟨size, fun table same => ?_⟩
  cases same
  exact wide

theorem guarded (complete : f.Complete n) (size : x.size = n) (config : Config α) :
    method.Guarded config f x (Sized n) (fun _ => False)
      fun why => why = .singularSystem "limited-memory Newton direction" where
  start := Work.ends_pure ⟨size, nofun⟩
  step _ _ sized := step_ends complete sized
  tracked _ sized := Method.measured_gradient complete.toConforming rfl rfl sized.point

end WindowedNewton

namespace RandomSubspace

/-- A point with so many coordinates, as many as the space has dimensions. -/
structure Sized (dim : UInt64) (n : Nat) (s : PointState α) : Prop where
  point : s.point.size = n
  space : dim.toNat = n

omit [Scalar α] in
/-- The start refuses the points that are none of the space. -/
theorem start_ends (dim : UInt64) (size : x.size = n) :
    (liftM (start dim x) : Work α (PointState α)).Ends (Sized dim n)
    fun why => dim.toNat ≠ n ∧ why = .sizeMismatch dim.toNat n := by
  by_cases same : x.size = dim.toNat
  · exact Work.ends_except ⟨_, if_pos same, size, same.symm.trans size⟩
  · refine Work.ends_error (if_neg same) ⟨fun other => same (size.trans other.symm), ?_⟩
    rw [size]

section

variable {σ : Type} {dim : UInt64} {s : PointState α} {basis : Table α} (sized : Sized dim n s)

include sized

theorem Sized.wide {shape : Shape} (same : shape.dim = dim) (next : σ → α × σ) (source : σ) :
    (shape.draw next source).1.width = n := by
  rw [shape.width_draw, same, sized.space]

theorem Sized.moved_ok (wide : basis.width = n) {d : Coords α} (size : d.size = basis.height) (t : α) :
    ∃ s', moved s ⟨s.point, basis⟩ d t = .ok s' ∧ Sized dim n s' := by
  let space : Subspace α := ⟨s.point, basis⟩
  obtain ⟨along, embedded, aSize⟩ := space.embed_ok wide size
  obtain ⟨y, added, ySize⟩ := Coords.add_ok sized.point ((Coords.size_scale along t).trans aSize)
  exact ⟨{ s with point := y }, moved_eq_ok.mpr ⟨along, embedded, added, rfl⟩, ySize, sized.space⟩

variable (complete : f.Complete n) (wide : basis.width = n)

include complete wide

theorem Gradient.step_ends {config : Gradient.Config α} :
    (Gradient.step config f basis s).Ends (Sized dim n) fun _ => False := by
  let space : Subspace α := ⟨s.point, basis⟩
  have within : (f.restrict space).Complete space.dim := Objective.restrict_complete complete wide sized.point
  refine (Work.ends_checked (within.expand _ (Coords.size_constant _ _))).bind fun (value, gradient) gSize => ?_
  have dSize : (direction gradient).size = space.dim := (Coords.size_neg gradient).trans gSize
  have searched := Armijo.runWithin_ok complete.toConforming wide sized.point gSize dSize config.search value
  refine (Work.ends_some searched).bind fun found _ => (Work.ends_note _).bind fun _ _ => ?_
  exact Work.ends_checked (sized.moved_ok wide dSize found.step)

theorem Newton.step_ends {config : Newton.Config α} : (Newton.step config f basis s).Ends (Sized dim n)
    fun why => why = .singularSystem "subspace Newton direction" := by
  let space : Subspace α := ⟨s.point, basis⟩
  have within : (f.restrict space).Complete space.dim := Objective.restrict_complete complete wide sized.point
  refine (Work.ends_checked (within.expand _ (Coords.size_constant _ _))).bind fun (value, gradient) gSize => ?_
  refine (Work.ends_checked (within.hessian _ (Coords.size_constant _ _))).bind fun hessian ⟨high, _⟩ => ?_
  refine (solve_ends high ((Coords.size_neg gradient).trans gSize) _).bind fun d dSize => ?_
  have searched := Armijo.runWithin_ok complete.toConforming wide sized.point gSize dSize config.search value
  refine (Work.ends_some searched).bind fun found _ => ?_
  exact Work.ends_checked (sized.moved_ok wide dSize found.step)

end

section

variable {σ : Type} (next : σ → α × σ) (complete : f.Complete n) (size : x.size = n)

include complete size

theorem Gradient.guarded (config : Gradient.Config α) :
    (Gradient.method next).Guarded config f x (Sized config.dim n)
      (fun why => config.dim.toNat ≠ n ∧ why = .sizeMismatch config.dim.toNat n) fun _ => False where
  start := start_ends config.dim size
  step source _ sized := Gradient.step_ends sized complete (sized.wide rfl next source)
  tracked _ sized := Method.measured_gradient complete.toConforming rfl rfl sized.point

theorem Newton.guarded (config : Newton.Config α) :
    (Newton.method next).Guarded config f x (Sized config.dim n)
      (fun why => config.dim.toNat ≠ n ∧ why = .sizeMismatch config.dim.toNat n)
      fun why => why = .singularSystem "subspace Newton direction" where
  start := start_ends config.dim size
  step source _ sized := Newton.step_ends sized complete (sized.wide rfl next source)
  tracked _ sized := Method.measured_gradient complete.toConforming rfl rfl sized.point

end

end RandomSubspace

end Downhill
