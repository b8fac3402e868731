import Downhill.Proofs.Problems
import Downhill.Proofs.Shapes
import Downhill.Subspace

namespace Downhill

section

variable {α : Type} [Scalar α] {f : Objective α} {space : Subspace α} {n : Nat}

namespace Subspace

variable (wide : space.basis.width = n)

include wide

theorem embed_ok {d : Coords α} (fits : d.size = space.dim) :
    ∃ along, space.embed d = .ok along ∧ along.size = n := by
  obtain ⟨along, made, size⟩ := Table.combineRows_ok fits
  exact ⟨along, made, size.trans wide⟩

theorem size_embed {d along : Coords α} (embedded : space.embed d = .ok along) : along.size = n :=
  (Table.size_apply embedded).2.trans (space.basis.height_transpose.trans wide)

theorem lift_ok (dimension : space.origin.size = n) {d : Coords α} (fits : d.size = space.dim) :
    ∃ x, space.lift d = .ok x ∧ x.size = n := by
  obtain ⟨along, embedded, size⟩ := embed_ok wide fits
  obtain ⟨x, moved, xSize⟩ := Coords.add_ok dimension size
  exact ⟨x, Outcome.bind_eq_ok.mpr ⟨along, embedded, moved⟩, xSize⟩

end Subspace

theorem Objective.restrict_conforming (conforming : f.Conforming n) (wide : space.basis.width = n)
    (dimension : space.origin.size = n) : (f.restrict space).Conforming space.dim := by
  constructor <;> intro d fits <;> obtain ⟨x, lifted, size⟩ := space.lift_ok wide dimension fits
  · obtain ⟨v, atValue⟩ := conforming.value x size
    exact ⟨v, Outcome.bind_eq_ok.mpr ⟨x, lifted, atValue⟩⟩
  · obtain ⟨g, atGradient, gSize⟩ := conforming.gradient x size
    obtain ⟨reduced, applied, height⟩ := Table.apply_ok (A := space.basis) (x := g) (wide.trans gSize.symm)
    exact ⟨reduced, Outcome.bind_eq_ok.mpr ⟨x, lifted, Outcome.bind_eq_ok.mpr ⟨g, atGradient, applied⟩⟩,
      height⟩

theorem Objective.restrict_expands (expands : f.Expands n) (wide : space.basis.width = n)
    (dimension : space.origin.size = n) : (f.restrict space).Expands space.dim := by
  intro d v g fits atValue atGradient
  obtain ⟨x, lifted, size⟩ := space.lift_ok wide dimension fits
  simp only [restrict, lifted, Outcome.bind_eq_ok, Outcome.pure_eq_ok, Except.ok.injEq, exists_eq_left',
    Prod.exists, Prod.mk.injEq] at atValue atGradient ⊢
  obtain ⟨full, atFull, applied⟩ := atGradient
  exact ⟨v, full, expands x v full size atValue atFull, g, applied, rfl, rfl⟩

/-- What a method may ask for on a subspace is there if it is in the whole space. -/
theorem Objective.restrict_complete (complete : f.Complete n) (wide : space.basis.width = n)
    (dimension : space.origin.size = n) : (f.restrict space).Complete space.dim := by
  refine ⟨restrict_conforming complete.toConforming wide dimension, fun d fits => ?_, fun d fits => ?_⟩ <;>
    obtain ⟨x, lifted, size⟩ := space.lift_ok wide dimension fits
  · obtain ⟨⟨v, g⟩, expanded, gSize⟩ := complete.expand x size
    obtain ⟨reduced, applied, height⟩ := Table.apply_ok (A := space.basis) (x := g) (wide.trans gSize.symm)
    refine ⟨(v, reduced), ?_, height⟩
    simp only [restrict, lifted, expanded, applied, bind, Except.bind, pure, Except.pure]
  · obtain ⟨H, atHessian, high, across⟩ := complete.hessian x size
    have basis : space.basis.Shaped space.dim n := ⟨rfl, wide⟩
    obtain ⟨left, first, leftShape⟩ := basis.mul_ok ⟨high, across⟩
    obtain ⟨both, second, shape⟩ := leftShape.mul_ok basis.transpose
    obtain ⟨R, mean, rShape⟩ := shape.symmetrize_ok
    refine ⟨R, ?_, rShape.high, rShape.wide⟩
    simp only [restrict, lifted, atHessian, first, second, mean, bind, Except.bind]

end

section

variable {f : Objective ℝ} {space : Subspace ℝ} {n : Nat}

namespace Subspace

/-- The displacement is the combination of the rows. -/
theorem vec_embed {d along : Coords ℝ} (wide : space.basis.width = n) (embedded : space.embed d = .ok along) :
    along.vec n = (space.basis.mat space.dim n).vecMul (d.vec space.dim) :=
  Table.vec_combineRows embedded rfl wide

theorem vec_lift {d x : Coords ℝ} (wide : space.basis.width = n) (lifted : space.lift d = .ok x) :
    x.vec n = space.origin.vec n + (space.basis.mat space.dim n).vecMul (d.vec space.dim) := by
  obtain ⟨along, embedded, moved⟩ := Outcome.bind_eq_ok.mp lifted
  rw [Coords.vec_add moved, vec_embed wide embedded]

/-- The slope is that of the objective along the displacement. -/
theorem slope_eq_along {gradient reduced d along : Coords ℝ} {slope : ℝ} (wide : space.basis.width = n)
    (applied : space.basis.apply gradient = .ok reduced) (embedded : space.embed d = .ok along)
    (product : reduced.dot d = .ok slope) : slope = gradient.vec n ⬝ᵥ along.vec n := by
  rw [(Coords.dot_eq (Table.size_apply applied).2.le product).2, Table.vec_apply applied rfl wide,
    vec_embed wide embedded, dotProduct_comm, Matrix.dotProduct_mulVec, dotProduct_comm]
  rfl

/-- The origin of the coordinates is the origin of the subspace. -/
theorem lift_zeros (wide : space.basis.width = n) (dimension : space.origin.size = n) :
    space.lift (.zeros space.dim) = .ok space.origin := by
  obtain ⟨along, embedded, size⟩ := space.embed_ok wide (d := .zeros space.dim) (Coords.size_constant _ _)
  obtain ⟨x, moved, xSize⟩ := Coords.add_ok dimension size
  have still : x = space.origin := by
    refine Coords.eq_of_vec xSize dimension ?_
    rw [Coords.vec_add moved, vec_embed wide embedded, Coords.vec_zeros, Matrix.zero_vecMul, add_zero]
  exact Outcome.bind_eq_ok.mpr ⟨along, embedded, still ▸ moved⟩

/-- Coordinates that are moved lead to a point that is moved by the displacement. -/
theorem lift_add {r d x along r' : Coords ℝ} {t : ℝ} (wide : space.basis.width = n)
    (dimension : space.origin.size = n) (lifted : space.lift r = .ok x) (embedded : space.embed d = .ok along)
    (moved : r.add (d.scale t) = .ok r') (fits : r.size = space.dim) :
    ∃ y, space.lift r' = .ok y ∧ x.add (along.scale t) = .ok y := by
  obtain ⟨first, atFirst, added⟩ := Outcome.bind_eq_ok.mp lifted
  have rSize : r'.size = space.dim := (Coords.size_combine moved).2.trans fits
  have xSize : x.size = n := (Coords.size_combine added).2.trans dimension
  obtain ⟨second, atSecond, secondSize⟩ := space.embed_ok wide rSize
  obtain ⟨y, there, ySize⟩ := Coords.add_ok dimension secondSize
  obtain ⟨z, along', zSize⟩ := Coords.add_ok xSize ((Coords.size_scale along t).trans (size_embed wide embedded))
  have same : z = y := by
    refine Coords.eq_of_vec zSize ySize ?_
    rw [Coords.vec_add along', Coords.vec_add there, Coords.vec_add added, Coords.vec_scale,
      vec_embed wide atSecond, vec_embed wide atFirst, vec_embed wide embedded, Coords.vec_add moved,
      Coords.vec_scale, Matrix.add_vecMul, Matrix.smul_vecMul, add_assoc]
  exact ⟨y, Outcome.bind_eq_ok.mpr ⟨second, atSecond, there⟩, same ▸ along'⟩

end Subspace

/-- One table between another and its transpose, made symmetric. -/
def Table.congruent {α : Type} [Scalar α] (P H : Table α) : Checked (Table α) := do
  let left ← P.mul H
  (← left.mul P.transpose).symmetrize

theorem Table.congruent_ok {P H : Table ℝ} {m : Nat} (high : P.height = m) (wide : P.width = n)
    (tall : H.height = n) (across : H.width = n) : ∃ C, P.congruent H = .ok C ∧ C.height = m ∧ C.width = m ∧
      C.mat m m = (0.5 : ℝ) • (P.mat m n * H.mat n n * (P.mat m n).transpose +
        (P.mat m n * H.mat n n * (P.mat m n).transpose).transpose) := by
  obtain ⟨left, first, leftHigh, leftWide, leftProduct⟩ := mul_ok high wide tall across
  obtain ⟨both, second, bothHigh, bothWide, product⟩ := mul_ok leftHigh leftWide (P.height_transpose.trans wide)
    ((width_ofFn _ _ _).trans high)
  obtain ⟨C, mean, cHigh, cWide, value⟩ := symmetrize_ok bothHigh bothWide
  refine ⟨C, ?_, cHigh, cWide, ?_⟩
  · simp only [congruent, first, second, mean, bind, Except.bind]
  · rw [value, product, leftProduct, mat_transpose high wide]

theorem Table.form_congruent {m : Nat} (P : Matrix (Fin m) (Fin n) ℝ) (M : Matrix (Fin n) (Fin n) ℝ)
    (w : Fin m → ℝ) :
    w ⬝ᵥ (P * M * P.transpose).mulVec w = P.transpose.mulVec w ⬝ᵥ M.mulVec (P.transpose.mulVec w) := by
  rw [← Matrix.mulVec_mulVec, ← Matrix.mulVec_mulVec, Matrix.dotProduct_mulVec w, ← Matrix.mulVec_transpose]

theorem Objective.restrict_hessian_eq (f : Objective ℝ) (space : Subspace ℝ) (d : Coords ℝ) :
    (f.restrict space).hessian d = (do space.basis.congruent (← f.hessian (← space.lift d))) :=
  rfl

/-- A symmetric Hessian is restricted to its product with the basis from both sides. -/
theorem Objective.restrict_hessian {d x : Coords ℝ} {H : Table ℝ} (wide : space.basis.width = n)
    (lifted : space.lift d = .ok x) (atHessian : f.hessian x = .ok H) (high : H.height = n)
    (across : H.width = n) (symmetric : (H.mat n n).IsSymm) :
    ∃ R, (f.restrict space).hessian d = .ok R ∧ R.height = space.dim ∧ R.width = space.dim ∧
      R.mat space.dim space.dim = space.basis.mat space.dim n * H.mat n n *
        (space.basis.mat space.dim n).transpose ∧
      (R.mat space.dim space.dim).IsSymm := by
  obtain ⟨R, restricted, rHigh, rWide, mean⟩ := Table.congruent_ok (rfl : _ = space.dim) wide high across
  set P := space.basis.mat space.dim n
  have kept : (P * H.mat n n * P.transpose).IsSymm := by
    rw [Matrix.IsSymm, Matrix.transpose_mul, Matrix.transpose_mul, Matrix.transpose_transpose, symmetric.eq,
      Matrix.mul_assoc]
  have value : R.mat space.dim space.dim = P * H.mat n n * P.transpose := by
    rw [mean, kept.eq, ← two_smul ℝ, smul_smul]
    norm_num
  refine ⟨R, ?_, rHigh, rWide, value, value ▸ kept⟩
  simp only [restrict_hessian_eq, lifted, atHessian, restricted, bind, Except.bind]

theorem Objective.restrict_symmetricHessians (symmetric : f.SymmetricHessians n) (wide : space.basis.width = n)
    (dimension : space.origin.size = n) : (f.restrict space).SymmetricHessians space.dim := by
  intro d fits
  obtain ⟨x, lifted, size⟩ := space.lift_ok wide dimension fits
  obtain ⟨H, atHessian, high, across, kept⟩ := symmetric x size
  obtain ⟨R, restricted, rHigh, rWide, _, rSymmetric⟩ :=
    restrict_hessian wide lifted atHessian high across kept
  exact ⟨R, restricted, rHigh, rWide, rSymmetric⟩

theorem Table.apply_identity {x : Coords ℝ} (fits : x.size = n) : (identity n).apply x = .ok x := by
  refine (apply_eq_ok_iff (height_identity n) (width_identity n)).mpr ⟨fits, fits, ?_⟩
  rw [mat_identity, Matrix.one_mulVec]

/-- The subspace through a point that is the whole space. -/
def Subspace.full {α : Type} [Scalar α] (x : Coords α) : Subspace α :=
  ⟨x, .identity x.size⟩

namespace Subspace

variable {x : Coords ℝ}

theorem dim_full (x : Coords ℝ) : (full x).dim = x.size :=
  Table.height_identity x.size

theorem width_full (x : Coords ℝ) : (full x).basis.width = x.size :=
  rfl

theorem mat_full (x : Coords ℝ) : (full x).basis.mat x.size x.size = 1 :=
  Table.mat_identity x.size

theorem embed_full {d : Coords ℝ} (fits : d.size = x.size) : (full x).embed d = .ok d := by
  obtain ⟨along, embedded, size⟩ := embed_ok (width_full x) (fits.trans (dim_full x).symm)
  have same : along = d := by
    refine Coords.eq_of_vec size fits ?_
    rw [Table.vec_combineRows embedded (dim_full x) (width_full x), mat_full, Matrix.vecMul_one]
  exact same ▸ embedded

theorem lift_full (x : Coords ℝ) : (full x).lift (.zeros (full x).dim) = .ok x :=
  lift_zeros (width_full x) rfl

end Subspace

theorem Objective.expand_full {x g : Coords ℝ} {v : ℝ} (expanded : f.expand x = .ok (v, g))
    (fits : g.size = x.size) : (f.restrict (.full x)).expand (.zeros (Subspace.full x).dim) = .ok (v, g) := by
  have applied : (Subspace.full x).basis.apply g = .ok g := Table.apply_identity fits
  simp only [restrict, Subspace.lift_full, expanded, applied, bind, Except.bind, pure, Except.pure]

theorem Objective.hessian_full {x : Coords ℝ} {H : Table ℝ} (atHessian : f.hessian x = .ok H)
    (high : H.height = x.size) (wide : H.width = x.size) (symmetric : (H.mat x.size x.size).IsSymm) :
    (f.restrict (.full x)).hessian (.zeros (Subspace.full x).dim) = .ok H := by
  obtain ⟨R, restricted, rHigh, rWide, product, _⟩ :=
    restrict_hessian (Subspace.width_full x) (Subspace.lift_full x) atHessian high wide symmetric
  have same : R = H := by
    rw [Subspace.dim_full] at rHigh rWide product
    refine Table.eq_of_mat rHigh rWide high wide ?_
    rw [product, Subspace.mat_full, Matrix.one_mul, Matrix.transpose_one, Matrix.mul_one]
  exact same ▸ restricted

end

end Downhill
