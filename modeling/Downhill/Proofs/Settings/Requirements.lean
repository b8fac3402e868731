import Downhill.Method.Acceleration
import Downhill.Method.DynamicBarrier
import Downhill.Method.GradientProjection
import Downhill.Method.InteriorPoint
import Downhill.Method.Newton
import Downhill.Method.ProximalGradient
import Downhill.Method.RandomSubspace
import Downhill.Method.WindowedNewton
import Downhill.Proofs.Ranges

namespace Downhill

/-- The first element of a list with a property. -/
inductive First {β : Type} (P : β → Prop) : List β → β → Prop
  | here {x : β} {xs : List β} (holds : P x) : First P (x :: xs) x
  | later {x y : β} {xs : List β} (fails : ¬P y) (rest : First P xs x) : First P (y :: xs) x

namespace First

variable {β : Type} {P : β → Prop} {xs ys : List β} {x y : β}

theorem mem (first : First P xs x) : x ∈ xs := by
  induction first with
  | here => exact List.mem_cons_self
  | later _ _ ih => exact List.mem_cons_of_mem _ ih

theorem holds (first : First P xs x) : P x := by
  induction first with
  | here holds => exact holds
  | later _ _ ih => exact ih

theorem unique (first : First P xs x) (other : First P xs y) : x = y := by
  induction first with
  | here holds =>
    cases other with
    | here => rfl
    | later fails => exact absurd holds fails
  | later fails _ ih =>
    cases other with
    | here holds => exact absurd holds fails
    | later _ rest => exact ih rest

/-- Either there is a first element with the property or none has it. -/
theorem exists_or (P : β → Prop) (xs : List β) : (∃ x, First P xs x) ∨ ∀ x ∈ xs, ¬P x := by
  induction xs with
  | nil => exact Or.inr nofun
  | cons y rest ih =>
    by_cases holds : P y
    · exact Or.inl ⟨y, .here holds⟩
    · exact ih.imp (fun ⟨x, first⟩ => ⟨x, .later holds first⟩) fun never => List.forall_mem_cons.mpr ⟨holds, never⟩

theorem congr {Q : β → Prop} (same : ∀ x, P x ↔ Q x) (first : First P xs x) : First Q xs x := by
  induction first with
  | here holds => exact .here ((same _).mp holds)
  | later fails _ ih => exact .later (mt (same _).mpr fails) ih

theorem append_right (never : ∀ y ∈ ys, ¬P y) (first : First P xs x) : First P (ys ++ xs) x := by
  induction ys with
  | nil => exact first
  | cons y rest ih =>
    obtain ⟨fails, others⟩ := List.forall_mem_cons.mp never
    exact .later fails (ih others)

theorem append_left (ys : List β) (first : First P xs x) : First P (xs ++ ys) x := by
  induction first with
  | here holds => exact .here holds
  | later fails _ ih => exact .later fails ih

theorem find? {p : β → Bool} (first : First (p · = true) xs x) : xs.find? p = some x := by
  induction first with
  | here holds => exact List.find?_cons_of_pos holds
  | later fails _ ih => rw [List.find?_cons_of_neg fails, ih]

theorem findSome? {γ : Type} {f : β → Option γ} {c : γ} (first : First (fun x => f x ≠ none) xs x)
    (found : f x = some c) : xs.findSome? f = some c := by
  induction first with
  | here _ => simp only [List.findSome?_cons, found]
  | later fails _ ih => rw [List.findSome?_cons, not_not.mp fails, ih found]

end First

/-- A condition on configurations of type `C`, the setting that it is about, and what is said where it is not
met. -/
structure Requirement (α C : Type) where
  name : String
  Met : C → Prop
  reason : C → Reason α

namespace Requirement

variable {α C : Type}

/-- A field is a finite positive number. -/
def positive [Scalar α] (name : String) (field : C → α) : Requirement α C where
  name := name
  Met c := Scalar.isFinite (field c) = true ∧ 0 < field c
  reason c := .notPositive (field c)

/-- A field is strictly between zero and one. -/
def fraction [Scalar α] (name : String) (field : C → α) : Requirement α C where
  name := name
  Met c := 0 < field c ∧ field c < 1
  reason c := .outsideUnitInterval (field c)

/-- A count is not zero. -/
def nonzero (name : String) (field : C → UInt64) : Requirement α C where
  name := name
  Met c := field c ≠ 0
  reason _ := .zero

/-- A count is even and not zero. -/
def pairs (name : String) (field : C → UInt64) : Requirement α C where
  name := name
  Met c := field c ≠ 0 ∧ field c % 2 = 0
  reason c := .oddRows (field c)

/-- A count is at most the dimension. -/
def within (name : String) (dim field : C → UInt64) : Requirement α C where
  name := name
  Met c := field c ≤ dim c
  reason c := .exceedsDimension (dim c) (field c)

/-- What is reported where the requirement is not met. -/
def failure (r : Requirement α C) (c : C) : Failure α :=
  .refusedSetting r.name (r.reason c)

/-- A check reports the first requirement that is not met, and nothing where all are. -/
def Decides (rs : List (Requirement α C)) (check : C → Except (Failure α) Unit) : Prop :=
  ∀ c, (∀ r ∈ rs, r.Met c) ∧ check c = .ok () ∨
    ∃ r, First (fun r => ¬r.Met c) rs r ∧ check c = .error (r.failure c)

variable {rs qs : List (Requirement α C)} {check next : C → Except (Failure α) Unit}

theorem Decides.ok (decides : Decides rs check) {c : C} : check c = .ok () ↔ ∀ r ∈ rs, r.Met c := by
  obtain ⟨met, passed⟩ | ⟨r, first, refused⟩ := decides c
  · exact iff_of_true passed met
  · exact iff_of_false (fun passed => nomatch passed.symm.trans refused) fun met => first.holds (met r first.mem)

theorem Decides.error (decides : Decides rs check) {c : C} {r : Requirement α C}
    (first : First (fun r => ¬r.Met c) rs r) : check c = .error (r.failure c) := by
  obtain ⟨met, _⟩ | ⟨q, other, refused⟩ := decides c
  · exact absurd (met r first.mem) first.holds
  · rw [first.unique other, refused]

/-- One check after the other decides the requirements of both. -/
theorem Decides.then (decides : Decides rs check) (after : Decides qs next) :
    Decides (rs ++ qs) fun c => check c >>= fun _ => next c := by
  intro c
  obtain ⟨met, passed⟩ | ⟨r, first, refused⟩ := decides c
  · simp only [passed]
    obtain ⟨also, through⟩ | ⟨q, second, refused⟩ := after c
    · exact Or.inl ⟨List.forall_mem_append.mpr ⟨met, also⟩, through⟩
    · exact Or.inr ⟨q, second.append_right fun r member => not_not.mpr (met r member), refused⟩
  · simp only [refused]
    exact Or.inr ⟨r, first.append_left qs, rfl⟩

/-- A check of one requirement. -/
theorem Decides.single {r : Requirement α C} (passes : ∀ c, r.Met c → check c = .ok ())
    (refuses : ∀ c, ¬r.Met c → check c = .error (r.failure c)) : Decides [r] check := by
  intro c
  by_cases met : r.Met c
  · exact Or.inl ⟨List.forall_mem_singleton.mpr met, passes c met⟩
  · exact Or.inr ⟨r, .here met, refuses c met⟩

section Numbers

variable [Scalar α]

theorem decides_positive (name : String) (field : C → α) :
    Decides [positive name field] fun c => requirePositive name (field c) :=
  .single (fun _ met => if_pos met) fun _ unmet => if_neg unmet

theorem decides_fraction (name : String) (field : C → α) :
    Decides [fraction name field] fun c => requireFraction name (field c) :=
  .single (fun _ met => if_pos met) fun _ unmet => if_neg unmet

end Numbers

theorem decides_nonzero (name : String) (field : C → UInt64) :
    Decides (α := α) [nonzero name field] fun c => requireNonzero name (field c) := by
  refine .single (fun c met => if_pos ?_) fun c unmet => if_neg fun positive => unmet ?_
  · exact UInt64.pos_iff_ne_zero.mpr met
  · exact UInt64.pos_iff_ne_zero.mp positive

theorem decides_pairs (name : String) (field : C → UInt64) :
    Decides (α := α) [pairs name field] fun c => WindowedNewton.requireEvenRows name (field c) := by
  have odd (n : UInt64) : (n < 2 ∨ n % 2 ≠ 0) ↔ ¬(n ≠ 0 ∧ n % 2 = 0) := by
    have parts : n = 0 ∨ n = 1 ∨ ¬n < 2 := by
      simp only [UInt64.lt_iff_toNat_lt, ← UInt64.toNat_inj]
      change n.toNat = 0 ∨ n.toNat = 1 ∨ ¬n.toNat < 2
      omega
    rcases parts with rfl | rfl | large
    · decide
    · decide
    · have nonzero : n ≠ 0 := fun zero => large (zero ▸ by decide)
      simp [large, nonzero]
  refine .single (fun c met => if_neg ?_) fun c unmet => if_pos ((odd _).mpr unmet)
  exact fun refused => (odd _).mp refused met

/-- A subspace has at least one dimension and no more than the space. -/
theorem decides_shape (dim rows : C → UInt64) :
    Decides (α := α) [nonzero "dim" dim, nonzero "reduced_dim" rows, within "reduced_dim" dim rows]
      fun c => RandomSubspace.requireShape (rows c) (dim c) := by
  refine (decides_nonzero "dim" dim).then ((decides_nonzero "reduced_dim" rows).then (.single ?_ ?_))
  · exact fun c met => if_neg (UInt64.not_lt.mpr met)
  · exact fun c unmet => if_pos (UInt64.not_le.mp unmet)

end Requirement

/-- The methods. -/
inductive Variant
  | gradientDescent
  | acceleration
  | newton
  | subspaceGradient
  | subspaceNewton
  | windowedNewton
  | proximalGradient
  | proximalMomentum
  | gradientProjection
  | dynamicBarrier
  | interiorPoint
  deriving DecidableEq, Repr

namespace Variant

/-- The configurations of a method. -/
def Config (α : Type) : Variant → Type
  | gradientDescent => GradientDescent.Config α
  | acceleration => Acceleration.Config α
  | newton => Newton.Config α
  | subspaceGradient => RandomSubspace.Gradient.Config α
  | subspaceNewton => RandomSubspace.Newton.Config α
  | windowedNewton => WindowedNewton.Config α
  | proximalGradient => ProximalGradient.Config α
  | proximalMomentum => ProximalMomentum.Config α
  | gradientProjection => GradientProjection.Config α
  | dynamicBarrier => DynamicBarrier.Config α
  | interiorPoint => InteriorPoint.Config α

variable {α : Type} [Scalar α]

/-- The schema of a method's configurations. -/
def schema : (variant : Variant) → Schema α (variant.Config α)
  | gradientDescent => GradientDescent.schema
  | acceleration => Acceleration.schema
  | newton => Newton.schema
  | subspaceGradient => RandomSubspace.Gradient.schema
  | subspaceNewton => RandomSubspace.Newton.schema
  | windowedNewton => WindowedNewton.schema
  | proximalGradient => ProximalGradient.schema
  | proximalMomentum => ProximalMomentum.schema
  | gradientProjection => GradientProjection.schema
  | dynamicBarrier => DynamicBarrier.schema
  | interiorPoint => InteriorPoint.schema

open Requirement in
/-- What is required of a method's configurations, in the order in which it is checked. -/
def requirements : (variant : Variant) → List (Requirement α (variant.Config α))
  | gradientDescent => [positive "lr" GradientDescent.Config.rate]
  | acceleration => [positive "lr" GradientDescent.Config.rate]
  | newton => [fraction "alpha" Newton.Config.alpha, fraction "beta" Newton.Config.beta]
  | subspaceGradient =>
    [positive "lr" RandomSubspace.Gradient.Config.initial,
      nonzero "dim" RandomSubspace.Gradient.Config.dim,
      nonzero "reduced_dim" RandomSubspace.Gradient.Config.rows,
      within "reduced_dim" RandomSubspace.Gradient.Config.dim RandomSubspace.Gradient.Config.rows,
      fraction "alpha" RandomSubspace.Gradient.Config.alpha,
      fraction "beta" RandomSubspace.Gradient.Config.beta]
  | subspaceNewton =>
    [nonzero "dim" RandomSubspace.Newton.Config.dim,
      nonzero "reduced_dim" RandomSubspace.Newton.Config.rows,
      within "reduced_dim" RandomSubspace.Newton.Config.dim RandomSubspace.Newton.Config.rows,
      fraction "alpha" RandomSubspace.Newton.Config.alpha,
      fraction "beta" RandomSubspace.Newton.Config.beta]
  | windowedNewton =>
    [pairs "matrix_size" WindowedNewton.Config.rows,
      positive "threshold_eigenvalue" WindowedNewton.Config.threshold,
      fraction "alpha" WindowedNewton.Config.alpha,
      fraction "beta" WindowedNewton.Config.beta]
  | proximalGradient =>
    [positive "eps" ProximalGradient.Config.eps, fraction "beta" ProximalGradient.Config.beta]
  | proximalMomentum =>
    [fraction "beta" ProximalMomentum.Config.beta, positive "eps" ProximalMomentum.Config.eps]
  | gradientProjection =>
    [positive "eps" GradientProjection.Config.eps,
      positive "delta" GradientProjection.Config.delta,
      positive "alpha" GradientProjection.Config.alpha,
      fraction "beta" GradientProjection.Config.beta]
  | dynamicBarrier =>
    [positive "lr" DynamicBarrier.Config.rate,
      positive "alpha" DynamicBarrier.Config.alpha,
      positive "beta" DynamicBarrier.Config.beta,
      positive "sub_problem_eps" DynamicBarrier.Config.innerEps,
      nonzero "inner_iteration" DynamicBarrier.Config.innerBudget]
  | interiorPoint =>
    [positive "mu" InteriorPoint.Config.mu,
      positive "eps" InteriorPoint.Config.eps,
      positive "eps_feas" InteriorPoint.Config.epsFeas,
      fraction "alpha" InteriorPoint.Config.alpha,
      fraction "beta" InteriorPoint.Config.beta]

open Requirement in
/-- The check of every method decides what is required of its configurations. -/
theorem validate_decides (variant : Variant) : Decides variant.requirements (variant.schema (α := α)).validate := by
  cases variant with
  | gradientDescent => exact decides_positive _ _
  | acceleration => exact decides_positive _ _
  | newton => exact (decides_fraction _ _).then (decides_fraction _ _)
  | subspaceGradient =>
    exact (decides_positive _ _).then <| (decides_shape _ _).then <|
      (decides_fraction _ _).then (decides_fraction _ _)
  | subspaceNewton => exact (decides_shape _ _).then <| (decides_fraction _ _).then (decides_fraction _ _)
  | windowedNewton =>
    exact (decides_pairs _ _).then <| (decides_positive _ _).then <|
      (decides_fraction _ _).then (decides_fraction _ _)
  | proximalGradient => exact (decides_positive _ _).then (decides_fraction _ _)
  | proximalMomentum => exact (decides_fraction _ _).then (decides_positive _ _)
  | gradientProjection =>
    exact (decides_positive _ _).then <| (decides_positive _ _).then <|
      (decides_positive _ _).then (decides_fraction _ _)
  | dynamicBarrier =>
    exact (decides_positive _ _).then <| (decides_positive _ _).then <| (decides_positive _ _).then <|
      (decides_positive _ _).then (decides_nonzero _ _)
  | interiorPoint =>
    exact (decides_positive _ _).then <| (decides_positive _ _).then <| (decides_positive _ _).then <|
      (decides_fraction _ _).then (decides_fraction _ _)

end Variant

end Downhill
