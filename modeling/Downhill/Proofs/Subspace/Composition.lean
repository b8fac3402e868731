import Downhill.Proofs.SecondOrder
import Downhill.Proofs.Subspace

namespace Downhill

/-- The subspace of the whole space that is a part of another, in the coordinates of which it is given. -/
def Subspace.within {α : Type} [Scalar α] (part space : Subspace α) : Checked (Subspace α) := do
  return ⟨← space.lift part.origin, ← part.basis.mul space.basis⟩

namespace Table

/-- Whether what stands inside was made symmetric before makes no difference. -/
theorem mean_of_mean {m k : Nat} (Q : Matrix (Fin m) (Fin k) ℝ) (X : Matrix (Fin k) (Fin k) ℝ) :
    (0.5 : ℝ) • (Q * (0.5 : ℝ) • (X + X.transpose) * Q.transpose +
      (Q * (0.5 : ℝ) • (X + X.transpose) * Q.transpose).transpose) =
      (0.5 : ℝ) • (Q * X * Q.transpose + (Q * X * Q.transpose).transpose) := by
  have turned : (Q * X * Q.transpose).transpose = Q * X.transpose * Q.transpose := by
    rw [Matrix.transpose_mul, Matrix.transpose_mul, Matrix.transpose_transpose, Matrix.mul_assoc]
  have inner : Q * (0.5 : ℝ) • (X + X.transpose) * Q.transpose =
      (0.5 : ℝ) • (Q * X * Q.transpose + (Q * X * Q.transpose).transpose) := by
    rw [turned, Matrix.mul_smul, Matrix.smul_mul, Matrix.mul_add, Matrix.add_mul]
  rw [inner, Matrix.transpose_smul, Matrix.transpose_add, Matrix.transpose_transpose,
    add_comm (Q * X * Q.transpose).transpose, ← two_smul ℝ, smul_smul]
  norm_num

theorem form_mean {m : Nat} (Y : Matrix (Fin m) (Fin m) ℝ) (w : Fin m → ℝ) :
    w ⬝ᵥ ((0.5 : ℝ) • (Y + Y.transpose)).mulVec w = w ⬝ᵥ Y.mulVec w := by
  rw [Matrix.smul_mulVec, Matrix.add_mulVec, dotProduct_smul, dotProduct_add, Matrix.dotProduct_transpose_mulVec,
    smul_eq_mul]
  ring

variable {P Q C H : Table ℝ}

theorem congruent_of_high (apart : P.width ≠ H.height) : P.congruent H = .error (.sizes P.width H.height) := by
  rw [congruent, mul, dif_neg apart]
  rfl

theorem congruent_of_wide (tall : P.width = H.height) (apart : H.width ≠ P.width) :
    P.congruent H = .error (.sizes H.width P.width) := by
  obtain ⟨left, first, _, wide, _⟩ := mul_ok (A := P) (B := H) rfl rfl tall.symm rfl
  have short : left.width ≠ P.transpose.height := by rwa [wide, height_transpose]
  simp only [congruent, first, bind, Except.bind]
  rw [mul, dif_neg short, wide, height_transpose]

/-- Around a table a product stands as its factors do one after the other, whether or not anything is refused. -/
theorem congruent_mul (product : Q.mul P = .ok C) (H : Table ℝ) :
    (do Q.congruent (← P.congruent H)) = C.congruent H := by
  obtain ⟨fits, high, wide, value⟩ := mat_mul product
  by_cases tall : P.width = H.height
  · by_cases across : H.width = P.width
    · obtain ⟨inner, first, innerHigh, innerWide, innerMean⟩ := congruent_ok (P := P) fits rfl tall.symm across
      obtain ⟨outer, second, outerHigh, outerWide, outerMean⟩ := congruent_ok (P := Q) rfl rfl innerHigh innerWide
      obtain ⟨whole, third, wholeHigh, wholeWide, wholeMean⟩ := congruent_ok high wide tall.symm across
      have around : Q.mat Q.height Q.width * (P.mat Q.width P.width * H.mat P.width P.width *
          (P.mat Q.width P.width).transpose) * (Q.mat Q.height Q.width).transpose =
          Q.mat Q.height Q.width * P.mat Q.width P.width * H.mat P.width P.width *
            (Q.mat Q.height Q.width * P.mat Q.width P.width).transpose := by
        simp only [Matrix.transpose_mul, Matrix.mul_assoc]
      have same : outer = whole := by
        refine eq_of_mat outerHigh outerWide wholeHigh wholeWide ?_
        rw [outerMean, wholeMean, innerMean, value, mean_of_mean, around]
      simp only [first, second, third, same, bind, Except.bind]
    · rw [congruent_of_wide tall across, congruent_of_wide (wide.trans tall) (wide.symm ▸ across), wide]
      rfl
  · rw [congruent_of_high tall, congruent_of_high (wide.symm ▸ tall), wide]
    rfl

end Table

section

variable {f : Objective ℝ} {space part whole : Subspace ℝ} {n : Nat} (wide : space.basis.width = n)
  (dimension : space.origin.size = n)

section

variable (fits : part.basis.width = space.dim) (inside : part.origin.size = space.dim)

namespace Subspace

theorem within_eq_ok : part.within space = .ok whole ↔
    space.lift part.origin = .ok whole.origin ∧ part.basis.mul space.basis = .ok whole.basis := by
  simp only [within, Outcome.bind_eq_ok, Outcome.pure_eq_ok]
  constructor
  · rintro ⟨_, lifted, _, product, rfl⟩
    exact ⟨lifted, product⟩
  · rintro ⟨lifted, product⟩
    exact ⟨_, lifted, _, product, rfl⟩

theorem embed_within (made : part.within space = .ok whole) (d : Coords ℝ) :
    (do space.embed (← part.embed d)) = whole.embed d :=
  Table.combineRows_mul (within_eq_ok.mp made).2 d

include wide dimension fits inside

theorem within_ok : ∃ whole, part.within space = .ok whole ∧ whole.dim = part.dim ∧ whole.basis.width = n ∧
    whole.origin.size = n := by
  obtain ⟨x, lifted, size⟩ := space.lift_ok wide dimension inside
  obtain ⟨C, product, high, across, _⟩ := Table.mul_ok (A := part.basis) (B := space.basis) rfl rfl fits.symm wide
  exact ⟨⟨x, C⟩, within_eq_ok.mpr ⟨lifted, product⟩, high, across, size⟩

/-- The coordinates stand for the same point, taken there at once or through those of the larger subspace. -/
theorem lift_within (made : part.within space = .ok whole) (d : Coords ℝ) :
    (do space.lift (← part.lift d)) = whole.lift d := by
  have embeds := embed_within made d
  obtain ⟨lifted, _⟩ := within_eq_ok.mp made
  cases embedded : part.embed d with
  | error fault =>
    rw [embedded] at embeds
    simp only [lift, embedded, ← embeds, bind, Except.bind]
  | ok e =>
    have eSize : e.size = space.dim := part.size_embed fits embedded
    obtain ⟨along, atAlong, _⟩ := space.embed_ok wide eSize
    obtain ⟨r, moved, _⟩ := Coords.add_ok inside eSize
    obtain ⟨y, there, straight⟩ := space.lift_add (t := 1) wide dimension lifted atAlong
      (by rwa [Coords.scale_one]) inside
    rw [Coords.scale_one] at straight
    rw [embedded] at embeds
    have direct : whole.embed d = .ok along := embeds.symm.trans atAlong
    have first : part.lift d = .ok r := Outcome.bind_eq_ok.mpr ⟨e, embedded, moved⟩
    have second : whole.lift d = .ok y := Outcome.bind_eq_ok.mpr ⟨along, direct, straight⟩
    rw [first, second]
    exact there

/-- A displacement may be taken to the larger subspace before the point is taken further. -/
theorem lift_embed_within {β : Type} (made : part.within space = .ok whole) (d v : Coords ℝ)
    (next : Coords ℝ → Coords ℝ → Checked β) :
    (do
      let x ← part.lift d
      let w ← part.embed v
      let y ← space.lift x
      next y (← space.embed w)) = (do
      let y ← whole.lift d
      next y (← whole.embed v)) := by
  rw [← lift_within wide dimension fits inside made d, ← embed_within made v]
  cases lifted : part.lift d with
  | error fault => rfl
  | ok x =>
    -- From the part there is always a way on, so only the displacement can still be refused.
    obtain ⟨_, _, added⟩ := Outcome.bind_eq_ok.mp lifted
    obtain ⟨y, further, _⟩ := space.lift_ok wide dimension ((Coords.size_combine added).2.trans inside)
    cases part.embed v <;> simp only [further, bind, Except.bind]

end Subspace

include wide dimension fits inside

/-- What is restricted twice is restricted once to the part, in everything it computes, faults included. -/
theorem Objective.restrict_within (f : Objective ℝ) (made : part.within space = .ok whole) :
    (f.restrict space).restrict part = f.restrict whole := by
  have lifts := Subspace.lift_within wide dimension fits inside made
  have product := (Subspace.within_eq_ok.mp made).2
  -- The value, the gradient, the Hessian, its product with a displacement, and value and gradient at once.
  refine (Objective.mk.injEq ..).mpr ⟨funext fun d => ?_, funext fun d => ?_, funext fun d => ?_,
    funext fun d => funext fun v => ?_, funext fun d => ?_⟩
  · simp only [← lifts d, restrict, bind_assoc]
  · simp only [← lifts d, restrict, bind_assoc, Table.apply_mul product]
  · change ((f.restrict space).restrict part).hessian d = (f.restrict whole).hessian d
    simp only [← lifts d, restrict_hessian_eq, bind_assoc, Table.congruent_mul product]
  · have reordered := Subspace.lift_embed_within wide dimension fits inside made d v fun y u => do
      whole.basis.apply (← f.curvature y u)
    simp only [restrict, bind_assoc, ← Table.apply_mul product] at reordered ⊢
    exact reordered
  · simp only [← lifts d, restrict, bind_assoc, pure_bind, ← Table.apply_mul product]

end

include wide dimension

theorem Objective.HessianActs.restrict (acts : f.HessianActs n) (symmetric : f.SymmetricHessians n) :
    (f.restrict space).HessianActs space.dim := by
  intro d v R dSize vSize made
  obtain ⟨x, lifted, xSize⟩ := space.lift_ok wide dimension dSize
  obtain ⟨w, embedded, wSize⟩ := space.embed_ok wide vSize
  obtain ⟨H, atHessian, high, across, kept⟩ := symmetric x xSize
  obtain ⟨_, restricted, rHigh, rWide, product, _⟩ := restrict_hessian wide lifted atHessian high across kept
  obtain rfl := Except.ok.inj (made.symm.trans restricted)
  obtain ⟨u, applied, uSize⟩ := Table.apply_ok (A := H) (across.trans wSize.symm)
  obtain ⟨y, reduced, ySize⟩ := Table.apply_ok (A := space.basis) (wide.trans (uSize.trans high).symm)
  have shortened : y.vec space.dim = (space.basis.mat space.dim n).mulVec (u.vec n) :=
    Table.vec_apply reduced rfl wide
  have whole : R.apply v = .ok y := by
    refine (Table.apply_eq_ok_iff rHigh rWide).mpr ⟨vSize, ySize, ?_⟩
    rw [product, shortened, Table.vec_apply applied high across, space.vec_embed wide embedded,
      ← Matrix.mulVec_transpose, Matrix.mulVec_mulVec, Matrix.mulVec_mulVec]
  simp only [Objective.restrict, lifted, embedded, acts x w H xSize wSize atHessian, applied, reduced, whole, bind,
    Except.bind]

/-- That the restriction makes a Hessian symmetric does not change its form. -/
theorem Objective.OwnExpansion.restrict (expansion : f.OwnExpansion n) :
    (f.restrict space).OwnExpansion space.dim := by
  intro d e dSize eSize
  obtain ⟨x, lifted, xSize⟩ := space.lift_ok wide dimension dSize
  obtain ⟨along, embedded, alongSize⟩ := space.embed_ok wide eSize
  obtain ⟨y, v, w, g, H, moved, here, there, slope, gSize, atHessian, high, across, rise⟩ :=
    expansion x along xSize alongSize
  obtain ⟨r, displaced, _⟩ := Coords.add_ok dSize eSize
  obtain ⟨_, lifted', straight⟩ := space.lift_add (t := 1) wide dimension lifted embedded
    (by rwa [Coords.scale_one]) dSize
  rw [Coords.scale_one] at straight
  obtain rfl := Except.ok.inj (moved.symm.trans straight)
  obtain ⟨reduced, applied, size⟩ := Table.apply_ok (A := space.basis) (wide.trans gSize.symm)
  obtain ⟨R, restricted, rHigh, rWide, mean⟩ := Table.congruent_ok (rfl : _ = space.dim) wide high across
  refine ⟨r, v, w, reduced, R, displaced, ?_, ?_, ?_, size, ?_, rHigh, rWide, ?_⟩
  · exact Outcome.bind_eq_ok.mpr ⟨x, lifted, here⟩
  · exact Outcome.bind_eq_ok.mpr ⟨y, lifted', there⟩
  · exact Outcome.bind_eq_ok.mpr ⟨x, lifted, Outcome.bind_eq_ok.mpr ⟨g, slope, applied⟩⟩
  · simp only [restrict_hessian_eq, lifted, atHessian, restricted, bind, Except.bind]
  · set P := space.basis.mat space.dim n
    have way : along.vec n = P.transpose.mulVec (e.vec space.dim) := by
      rw [space.vec_embed wide embedded, Matrix.mulVec_transpose]
    have shortened : reduced.vec space.dim = P.mulVec (g.vec n) := Table.vec_apply applied rfl wide
    have tangent : reduced.vec space.dim ⬝ᵥ e.vec space.dim = g.vec n ⬝ᵥ along.vec n := by
      rw [shortened, way, Matrix.dotProduct_transpose_mulVec, dotProduct_comm]
    have bend : e.vec space.dim ⬝ᵥ (R.mat space.dim space.dim).mulVec (e.vec space.dim) =
        along.vec n ⬝ᵥ (H.mat n n).mulVec (along.vec n) := by
      rw [mean, Table.form_mean, Table.form_congruent, way]
    rw [rise, tangent, bend]

end

/-- To restrict an objective to a subspace and then to a part of it is to restrict it to the part at once:
value, gradient, Hessian and product with the Hessian are the same. What the Hessians and the expansion of the
objective satisfy carries over to a restriction. -/
theorem restrict_composes (f : Objective ℝ) (space part : Subspace ℝ) (n : Nat) (wide : space.basis.width = n)
    (dimension : space.origin.size = n) (fits : part.basis.width = space.dim)
    (inside : part.origin.size = space.dim) :
    (∃ whole, part.within space = .ok whole ∧ whole.dim = part.dim ∧ whole.basis.width = n ∧ whole.origin.size = n ∧
      (f.restrict space).restrict part = f.restrict whole ∧
      (f.Complete n → (f.restrict whole).Complete whole.dim)) ∧
    (f.SymmetricHessians n → f.HessianActs n →
      (f.restrict space).SymmetricHessians space.dim ∧ (f.restrict space).HessianActs space.dim) ∧
    (f.OwnExpansion n → (f.restrict space).OwnExpansion space.dim) := by
  obtain ⟨whole, made, high, across, size⟩ := Subspace.within_ok wide dimension fits inside
  refine ⟨⟨whole, made, high, across, size, ?_, fun complete => ?_⟩, fun symmetric acts => ⟨?_, ?_⟩,
    fun expansion => ?_⟩
  · exact Objective.restrict_within wide dimension fits inside f made
  · exact Objective.restrict_complete complete across size
  · exact Objective.restrict_symmetricHessians symmetric wide dimension
  · exact acts.restrict wide dimension symmetric
  · exact expansion.restrict wide dimension

/-- A line in a plane in skew coordinates, under a form that is not the sum of squares. -/
theorem restrict_composes_slanted :
    let space : Subspace ℝ := ⟨.ofFn ![1, 0], .ofFn 2 2 ![![1, 2], ![0, 1]]⟩
    let part : Subspace ℝ := ⟨.ofFn ![0, 1], .ofFn 1 2 ![![1, 1]]⟩
    ∃ whole, part.within space = .ok whole ∧ whole.origin = .ofFn ![1, 1] ∧ whole.basis = .ofFn 1 2 ![![1, 3]] ∧
      (Objective.slanted.restrict space).restrict part = Objective.slanted.restrict whole ∧
      (Objective.slanted.restrict whole).Complete 1 ∧
      (Objective.slanted.restrict space).SymmetricHessians 2 ∧ (Objective.slanted.restrict space).HessianActs 2 ∧
      (Objective.slanted.restrict space).OwnExpansion 2 := by
  intro space part
  have high : space.dim = 2 := Table.height_ofFn _ _ _
  have wide : space.basis.width = 2 := rfl
  have dimension : space.origin.size = 2 := Coords.size_ofFn _
  have inside : part.origin.size = space.dim := (Coords.size_ofFn _).trans high.symm
  have acts : Objective.slanted.HessianActs 2 :=
    fun _ v _ _ _ made => congrArg (Table.apply · v) (Except.ok.inj made)
  have expansion : Objective.slanted.OwnExpansion 2 :=
    (Objective.quadratic_paraboloid (.zeros 2) Table.height_slanted rfl
    Table.posDef_slanted.isHermitian).ownExpansion
      Objective.slanted_conforming fun _ _ => rfl
  have complete : Objective.slanted.Complete 2 :=
    Objective.quadratic_complete Table.height_slanted rfl (Coords.size_constant 2 0)
  obtain ⟨⟨whole, made, tall, across, size, same, all⟩, second, third⟩ :=
    restrict_composes .slanted space part 2 wide dimension high.symm inside
  obtain ⟨symmetric, acts'⟩ := second Objective.slanted_symmetricHessians acts
  have one : whole.dim = 1 := tall.trans (Table.height_ofFn _ _ _)
  have matrix : space.basis.mat 2 2 = !![1, 2; 0, 1] := Table.mat_ofFn _
  obtain ⟨lifted, product⟩ := Subspace.within_eq_ok.mp made
  have origin : whole.origin = .ofFn ![1, 1] := by
    obtain ⟨along, embedded, moved⟩ := Outcome.bind_eq_ok.mp lifted
    have first : space.origin.vec 2 = ![1, 0] := Coords.vec_ofFn _
    have second : part.origin.vec 2 = ![0, 1] := Coords.vec_ofFn _
    refine Coords.eq_of_vec size (Coords.size_ofFn _) ?_
    rw [Coords.vec_add moved, Table.vec_combineRows embedded high wide, matrix, first, second, Coords.vec_ofFn]
    funext i
    fin_cases i <;> norm_num [Matrix.vecMul, dotProduct, Fin.sum_univ_two]
  have basis : whole.basis = .ofFn 1 2 ![![1, 3]] := by
    have row : part.basis.mat 1 2 = !![1, 1] := Table.mat_ofFn _
    have flat : part.basis.height = 1 := Table.height_ofFn _ _ _
    have across' : part.basis.width = 2 := rfl
    obtain ⟨C, product', _, _, value⟩ := Table.mul_ok flat across' high wide
    obtain rfl := Except.ok.inj (product.symm.trans product')
    refine Table.eq_of_mat one across (Table.height_ofFn _ _ _) rfl ?_
    rw [value, row, matrix, Table.mat_ofFn]
    ext i j
    fin_cases i
    fin_cases j <;> norm_num [Matrix.mul_apply, Fin.sum_univ_two]
  rw [high] at symmetric acts' third
  exact ⟨whole, made, origin, basis, same, one ▸ all complete, symmetric, acts', third expansion⟩

end Downhill
