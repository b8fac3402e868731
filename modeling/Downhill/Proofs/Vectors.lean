import Mathlib
import Downhill.Coords
import Downhill.Proofs.Exact

namespace Downhill.Coords

section Sizes

variable {α : Type}

/-- A combination has the size that both its parts have. -/
theorem size_combine {f : α → α → α} {x y z : Coords α} (made : combine f x y = .ok z) :
    x.size = y.size ∧ z.size = x.size := by
  obtain ⟨same, rfl⟩ := combine_eq_ok_iff.mp made
  have sizes : x.entries.size = y.entries.size := same
  refine ⟨same, ?_⟩
  simp [size, sizes]

theorem combine_ok (f : α → α → α) {x y : Coords α} (same : x.size = y.size) :
    ∃ z, combine f x y = .ok z ∧ z.size = x.size :=
  ⟨_, combine_eq_ok_iff.mpr ⟨same, rfl⟩, (size_combine (combine_eq_ok_iff.mpr ⟨same, rfl⟩)).2⟩

theorem add_ok [Scalar α] {x y : Coords α} {n : Nat} (left : x.size = n) (right : y.size = n) :
    ∃ z, x.add y = .ok z ∧ z.size = n :=
  left ▸ combine_ok _ (left.trans right.symm)

theorem sub_ok [Scalar α] {x y : Coords α} {n : Nat} (left : x.size = n) (right : y.size = n) :
    ∃ z, x.sub y = .ok z ∧ z.size = n :=
  left ▸ combine_ok _ (left.trans right.symm)

theorem advance_ok [Scalar α] {x d : Coords α} {n : Nat} (left : x.size = n) (right : d.size = n) (a : α) :
    ∃ z, x.advance a d = .ok z ∧ z.size = n :=
  left ▸ combine_ok _ (left.trans right.symm)

theorem dot_ok [Scalar α] {x y : Coords α} {n : Nat} (left : x.size = n) (right : y.size = n) :
    ∃ v, x.dot y = .ok v :=
  ⟨_, if_pos (left.trans right.symm)⟩

@[simp]
theorem size_neg [Scalar α] (x : Coords α) : x.neg.size = x.size :=
  size_map _ x

@[simp]
theorem size_scale [Scalar α] (x : Coords α) (t : α) : (x.scale t).size = x.size :=
  size_map _ x

@[simp]
theorem size_append (x y : Coords α) : (x.append y).size = x.size + y.size :=
  Array.size_append

theorem forall_mem_constant {Each : α → Prop} (n : Nat) {v : α} (each : Each v) :
    ∀ w ∈ (constant n v).toList, Each w := by
  intro w member
  rw [toList, constant, Array.toList_replicate] at member
  exact (List.eq_of_mem_replicate member).symm ▸ each

/-- Moving along a direction is adding the scaled direction, wherever factors may change places. -/
theorem advance_eq_add_scale [Scalar α] (comm : ∀ v w : α, v * w = w * v) (x d : Coords α) (a : α) :
    x.advance a d = x.add (d.scale a) := by
  have entries : Array.zipWith (fun v w => v + a * w) x.entries d.entries =
      Array.zipWith (· + ·) x.entries (d.entries.map (· * a)) := by
    rw [Array.zipWith_map_right]
    simp only [comm a]
  have sizes : (d.scale a).size = d.size := size_scale d a
  unfold advance add combine
  rw [sizes, entries]
  rfl

end Sizes

/-- The coordinates as a vector of dimension `n`, continued by zeros. -/
def vec (x : Coords ℝ) (n : Nat) : Fin n → ℝ :=
  fun i => x.entries[i.val]?.getD 0

theorem vec_of_lt {x : Coords ℝ} {n : Nat} {i : Fin n} (inside : i.val < x.size) :
    x.vec n i = x[i.val] := by
  have within : i.val < x.entries.size := inside
  simp only [vec, Array.getElem?_eq_getElem within, Option.getD_some]
  rfl

theorem entry_eq_vec (x : Coords ℝ) (j : Fin x.size) : x.entry j = x.vec x.size j :=
  (vec_of_lt j.isLt).symm

/-- Sequences of one size are equal when their vectors are. -/
theorem eq_of_vec {x y : Coords ℝ} {n : Nat} (left : x.size = n) (right : y.size = n)
    (same : x.vec n = y.vec n) : x = y := by
  refine Coords.ext (Array.ext (left.trans right.symm) fun i first second => ?_)
  have inside : i < n := left ▸ first
  have entries := congrFun same ⟨i, inside⟩
  rwa [vec_of_lt (i := ⟨i, inside⟩) first, vec_of_lt (i := ⟨i, inside⟩) second] at entries

/-- What holds of every coordinate holds of every entry of the vector, and the other way round. -/
theorem forall_mem_iff {x : Coords ℝ} {n : Nat} (size : x.size = n) {P : ℝ → Prop} :
    (∀ v ∈ x.toList, P v) ↔ ∀ i, P (x.vec n i) := by
  constructor
  · intro all i
    have inside : i.val < x.size := size ▸ i.isLt
    rw [vec_of_lt inside]
    exact all _ (Array.mem_toList_iff.mpr (Array.getElem_mem _))
  · intro all v member
    obtain ⟨i, within, value⟩ := Array.mem_iff_getElem.mp (Array.mem_toList_iff.mp member)
    have inside : i < x.size := within
    have atPlace := all ⟨i, size ▸ inside⟩
    rw [vec_of_lt (i := ⟨i, size ▸ inside⟩) inside] at atPlace
    exact value ▸ atPlace

@[simp]
theorem vec_ofFn {n : Nat} (f : Fin n → ℝ) : (ofFn f).vec n = f := by
  funext i
  rw [vec_of_lt (by simp), getElem_ofFn]

@[simp]
theorem vec_constant {n : Nat} {v : ℝ} : (constant n v).vec n = fun _ => v := by
  funext i
  simp [vec, constant]

@[simp]
theorem vec_zeros {n : Nat} : (zeros n).vec n = 0 :=
  vec_constant

theorem vec_map {f : ℝ → ℝ} (fixed : f 0 = 0) (x : Coords ℝ) (n : Nat) (i : Fin n) :
    (x.map f).vec n i = f (x.vec n i) := by
  simp only [vec, map, Array.getElem?_map]
  cases x.entries[i.val]? <;> simp [fixed]

@[simp]
theorem vec_neg (x : Coords ℝ) (n : Nat) : x.neg.vec n = -x.vec n :=
  funext (vec_map neg_zero x n)

theorem vec_scale (x : Coords ℝ) (t : ℝ) (n : Nat) : (x.scale t).vec n = t • x.vec n :=
  funext fun i => (vec_map (f := (· * t)) (zero_mul t) x n i).trans (mul_comm _ _)

/-- A combination that leaves zeros alone combines the vectors. -/
theorem vec_combine {f : ℝ → ℝ → ℝ} (fixed : f 0 0 = 0) {x y z : Coords ℝ}
    (made : combine f x y = .ok z) (n : Nat) (i : Fin n) :
    z.vec n i = f (x.vec n i) (y.vec n i) := by
  obtain ⟨same, rfl⟩ := combine_eq_ok_iff.mp made
  have sizes : x.entries.size = y.entries.size := same
  by_cases inside : i.val < x.entries.size
  · have other : i.val < y.entries.size := sizes ▸ inside
    simp [vec, inside, other]
  · have other : ¬ i.val < y.entries.size := sizes ▸ inside
    simp [vec, Array.getElem?_zipWith, Array.getElem?_eq_none (not_lt.mp inside),
      Array.getElem?_eq_none (not_lt.mp other), fixed]

theorem vec_add {x y z : Coords ℝ} (made : x.add y = .ok z) (n : Nat) :
    z.vec n = x.vec n + y.vec n :=
  funext fun i => vec_combine (add_zero 0) made n i

theorem vec_sub {x y z : Coords ℝ} (made : x.sub y = .ok z) (n : Nat) :
    z.vec n = x.vec n - y.vec n :=
  funext fun i => vec_combine (sub_zero 0) made n i

theorem sub_ofFn {n : Nat} (a b : Fin n → ℝ) : (ofFn a).sub (ofFn b) = .ok (ofFn fun i => a i - b i) := by
  obtain ⟨c, made, size⟩ := sub_ok (size_ofFn a) (size_ofFn b)
  rw [made]
  refine congrArg Except.ok (eq_of_vec size (size_ofFn _) ?_)
  rw [vec_sub made, vec_ofFn, vec_ofFn, vec_ofFn]
  rfl

theorem vec_advance {x d z : Coords ℝ} {a : ℝ} (made : x.advance a d = .ok z) (n : Nat) :
    z.vec n = x.vec n + a • d.vec n :=
  funext fun i => vec_combine (f := fun v w => v + a * w) (by simp) made n i

/-- A step of no length leaves the point where it is. -/
theorem advance_zero {x d z : Coords ℝ} (made : x.advance 0 d = .ok z) : z = x := by
  refine eq_of_vec (size_combine made).2 rfl ?_
  rw [vec_advance made, zero_smul, add_zero]

theorem sum_zipWith_mul (xs ys : List ℝ) (n : Nat) (within : xs.length ≤ n) :
    (List.zipWith (· * ·) xs ys).sum = ∑ i : Fin n, xs[i.val]?.getD 0 * ys[i.val]?.getD 0 := by
  induction xs generalizing ys n with
  | nil => simp
  | cons v xs ih =>
    obtain ⟨m, rfl⟩ : ∃ m, n = m + 1 := ⟨n - 1, by simp at within; omega⟩
    have shorter : xs.length ≤ m := by simpa using within
    cases ys with
    | nil => simp
    | cons w ys => simp [Fin.sum_univ_succ, ih ys m shorter]

/-- The product of two sequences is that of their vectors, in every dimension that holds the first. -/
theorem pairing_eq {x : Coords ℝ} {n : Nat} (within : x.size ≤ n) (y : Coords ℝ) :
    x.pairing y = x.vec n ⬝ᵥ y.vec n := by
  have length : x.toList.length ≤ n := by simpa [toList, size] using within
  rw [pairing, Scalar.total_exact, sum_zipWith_mul _ _ n length]
  simp [dotProduct, vec, toList]

theorem dot_eq {x y : Coords ℝ} {n : Nat} {v : ℝ} (within : x.size ≤ n) (made : x.dot y = .ok v) :
    x.size = y.size ∧ v = x.vec n ⬝ᵥ y.vec n := by
  unfold dot at made
  split at made
  · rename_i same
    cases made
    exact ⟨same, pairing_eq within y⟩
  · cases made

theorem norm_eq {x : Coords ℝ} {n : Nat} (within : x.size ≤ n) :
    x.norm = √(x.vec n ⬝ᵥ x.vec n) := by
  rw [norm, Scalar.sqrt_exact, pairing_eq within]

theorem norm_nonneg (x : Coords ℝ) : 0 ≤ x.norm :=
  Real.sqrt_nonneg _

theorem norm_neg (x : Coords ℝ) : x.neg.norm = x.norm := by
  have size : x.neg.size ≤ x.size := (size_neg x).le
  rw [norm_eq size, norm_eq le_rfl, vec_neg, neg_dotProduct_neg]

theorem dotProduct_le_sqrt {n : Nat} (u v : Fin n → ℝ) : u ⬝ᵥ v ≤ √(u ⬝ᵥ u) * √(v ⬝ᵥ v) := by
  have bound := Real.sum_mul_le_sqrt_mul_sqrt Finset.univ u v
  simpa only [dotProduct, ← sq] using bound

theorem dotProduct_le_norms {x y : Coords ℝ} {n : Nat} (left : x.size ≤ n) (right : y.size ≤ n) :
    x.vec n ⬝ᵥ y.vec n ≤ x.norm * y.norm := by
  rw [norm_eq left, norm_eq right]
  exact dotProduct_le_sqrt _ _

theorem scale_one (x : Coords ℝ) : x.scale 1 = x :=
  eq_of_vec (size_scale x 1) rfl (by rw [vec_scale, one_smul])

theorem scale_scale (x : Coords ℝ) (a b : ℝ) : (x.scale a).scale b = x.scale (a * b) := by
  refine eq_of_vec ((size_scale _ b).trans (size_scale x a)) (size_scale x (a * b)) ?_
  rw [vec_scale, vec_scale, vec_scale, smul_smul, mul_comm]

theorem norm_scale (x : Coords ℝ) (t : ℝ) : (x.scale t).norm = |t| * x.norm := by
  rw [norm_eq (size_scale x t).le, norm_eq le_rfl, vec_scale, smul_dotProduct, dotProduct_smul, smul_smul,
    smul_eq_mul, Real.sqrt_mul (mul_self_nonneg t), Real.sqrt_mul_self_eq_abs]

section

variable {n m : Nat}

theorem vec_append_castAdd {x : Coords ℝ} (size : x.size = n) (y : Coords ℝ) (i : Fin n) :
    (x.append y).vec (n + m) (Fin.castAdd m i) = x.vec n i := by
  have inside : i.val < x.entries.size := size.symm ▸ i.isLt
  simp [vec, append, Array.getElem?_append, inside]

theorem vec_append_natAdd {x : Coords ℝ} (size : x.size = n) (y : Coords ℝ) (i : Fin m) :
    (x.append y).vec (n + m) (Fin.natAdd n i) = y.vec m i := by
  have first : x.entries.size = n := size
  simp [vec, append, Array.getElem?_append, first]

theorem norm_append {x y : Coords ℝ} (left : x.size = n) (right : y.size = m) :
    (x.append y).norm = √(x.vec n ⬝ᵥ x.vec n + y.vec m ⬝ᵥ y.vec m) := by
  rw [norm_eq ((size_append x y).trans (congrArg₂ (· + ·) left right)).le, dotProduct, Fin.sum_univ_add]
  simp only [vec_append_castAdd left, vec_append_natAdd left, dotProduct]

theorem vec_take (x : Coords ℝ) (i : Fin n) : (x.take n).vec n i = x.vec (n + m) (Fin.castAdd m i) := by
  simp only [vec, take, Array.take_eq_extract, Fin.val_castAdd]
  rw [Array.getElem?_extract]
  grind

theorem vec_drop (x : Coords ℝ) (i : Fin m) : (x.drop n).vec m i = x.vec (n + m) (Fin.natAdd n i) := by
  simp only [vec, drop, Array.drop_eq_extract, Fin.val_natAdd]
  rw [Array.getElem?_extract]
  grind

theorem vec_map_of_size (f : ℝ → ℝ) {x : Coords ℝ} (size : x.size = n) (i : Fin n) :
    (x.map f).vec n i = f (x.vec n i) := by
  have inside : i.val < x.entries.size := size.symm ▸ i.isLt
  simp [vec, map, inside]

end

end Downhill.Coords
