import Mathlib
import Downhill.Proofs.Definite.Arithmetic
import Downhill.Proofs.Difference.Quotients

namespace Downhill.Difference

variable {n : Nat} {G : (Fin n → ℝ) → Fin n → ℝ} {v : Fin n → ℝ} {gradient : Coords ℝ → Checked (Coords ℝ)}

/-- Over a step forward and a step back a quadratic rises as its slope in between says. -/
theorem central_quotient {q : Polynomial ℝ} (quadratic : q.natDegree ≤ 2) {h : ℝ} (nonzero : h ≠ 0) :
    (q.eval h - q.eval (-h)) / (2.0 * h) = q.derivative.eval 0 := by
  obtain ⟨a, b, c, rfl⟩ : ∃ a b c, q = .C a * .X ^ 2 + .C b * .X + .C c :=
    ⟨_, _, _, Polynomial.eq_quadratic_of_degree_le_two (Polynomial.natDegree_le_iff_degree_le.mp quadratic)⟩
  have two : (2.0 : ℝ) = 2 := by norm_num
  simp only [two, Polynomial.eval_add, Polynomial.eval_mul, Polynomial.eval_pow, Polynomial.eval_C,
    Polynomial.eval_X, Polynomial.derivative_add, Polynomial.derivative_C_mul_X_pow,
    Polynomial.derivative_C_mul_X, Polynomial.derivative_C, Polynomial.eval_zero]
  field_simp
  ring

/-- Along every axis through the point the entries of the map are polynomials of the second degree at most. -/
def QuadraticAlongAxes (G : (Fin n → ℝ) → Fin n → ℝ) (v : Fin n → ℝ) : Prop :=
  ∀ i j, ∃ q : Polynomial ℝ, q.natDegree ≤ 2 ∧ ∀ s, G (v + Pi.single j s) i = q.eval s

/-- The slopes of the entries of the map along the axes, a column for each axis. -/
def HasSlopes (G : (Fin n → ℝ) → Fin n → ℝ) (D : Matrix (Fin n) (Fin n) ℝ) (v : Fin n → ℝ) : Prop :=
  ∀ i j, HasDerivAt (fun s => G (v + Pi.single j s) i) (D i j) 0

theorem HasSlopes.unique {D E : Matrix (Fin n) (Fin n) ℝ} (first : HasSlopes G D v) (second : HasSlopes G E v) :
    D = E :=
  Matrix.ext fun i j => (first i j).unique (second i j)

/-- The quotients of what is quadratic along the axes are its slopes. -/
theorem QuadraticAlongAxes.hasSlopes (quadratic : QuadraticAlongAxes G v) : HasSlopes G (quotient G v) v := by
  intro i j
  obtain ⟨q, degree, values⟩ := quadratic i j
  have slope : quotient G v i j = q.derivative.eval 0 := by
    rw [← central_quotient degree (step_pos (v j)).ne', ← values, ← values]
    rfl
  rw [slope, funext values]
  exact q.hasDerivAt 0

/-- The map is the gradient of the function. -/
def IsGradient (f : (Fin n → ℝ) → ℝ) (G : (Fin n → ℝ) → Fin n → ℝ) : Prop :=
  ∀ y, HasFDerivAt f (∑ i, G y i • ContinuousLinearMap.proj (R := ℝ) (φ := fun _ : Fin n => ℝ) i) y

theorem HasSlopes.of_derivative {D : Matrix (Fin n) (Fin n) ℝ}
    (derivative : HasFDerivAt G D.mulVecLin.toContinuousLinearMap v) : HasSlopes G D v := by
  intro i j
  have axis : HasDerivAt (fun s : ℝ => v + Pi.single j s) (Pi.single j 1) 0 :=
    (ContinuousLinearMap.single ℝ (fun _ : Fin n => ℝ) j).hasDerivAt.const_add v
  have start : v = v + Pi.single j (0 : ℝ) := by simp
  rw [start] at derivative
  have along := hasDerivAt_pi.mp (derivative.comp_hasDerivAt 0 axis) i
  simpa [Function.comp_def] using along

/-- The derivative of a gradient is symmetric. -/
theorem IsGradient.isSymm {f : (Fin n → ℝ) → ℝ} (slopes : IsGradient f G) {D : Matrix (Fin n) (Fin n) ℝ}
    (derivative : HasFDerivAt G D.mulVecLin.toContinuousLinearMap v) : D.IsSymm := by
  have entries : ∀ i, HasFDerivAt (fun y => G y i)
      ((ContinuousLinearMap.proj i).comp D.mulVecLin.toContinuousLinearMap) v :=
    fun i => (ContinuousLinearMap.proj (R := ℝ) (φ := fun _ : Fin n => ℝ) i).hasFDerivAt.comp v derivative
  have second := HasFDerivAt.fun_sum (u := Finset.univ) fun i _ =>
    (entries i).smul_const (ContinuousLinearMap.proj (R := ℝ) (φ := fun _ : Fin n => ℝ) i)
  refine Matrix.IsSymm.ext fun i j => ?_
  have swap := second_derivative_symmetric slopes second (Pi.single i 1) (Pi.single j 1)
  simpa [Pi.single_apply] using swap

section

open MvPolynomial

variable {p : MvPolynomial (Fin n) ℝ}

theorem totalDegree_pderiv {d : Nat} (bound : p.totalDegree ≤ d + 1) (i : Fin n) :
    (pderiv i p).totalDegree ≤ d := by
  refine Finset.sup_le fun m member => ?_
  have coefficient := mem_support_iff.mp member
  rw [coeff_pderiv] at coefficient
  -- A monomial of the derivative comes from one that has the unknown once more.
  have above : m + Finsupp.single i 1 ∈ p.support := mem_support_iff.mpr (left_ne_zero_of_mul coefficient)
  have raised := (le_totalDegree above).trans bound
  rw [Finsupp.sum_add_index' (by simp) (by simp), Finsupp.sum_single_index rfl] at raised
  omega

theorem pderiv_pderiv (i j : Fin n) (p : MvPolynomial (Fin n) ℝ) :
    pderiv i (pderiv j p) = pderiv j (pderiv i p) := by
  have bracket : ⁅pderiv (R := ℝ) i, pderiv (R := ℝ) j⁆ = 0 := derivation_ext fun k => by
    have constant : ∀ l, ∃ c : ℝ, pderiv l (X k : MvPolynomial (Fin n) ℝ) = C c := fun l =>
      ⟨Pi.single (M := fun _ => ℝ) l 1 k, by rw [pderiv_X, Pi.single_apply, Pi.single_apply]; split <;> simp⟩
    obtain ⟨c, first⟩ := constant i
    obtain ⟨d, second⟩ := constant j
    rw [Derivation.commutator_apply, first, second, pderiv_C, pderiv_C, sub_self, Derivation.zero_apply]
  have applied := Derivation.congr_fun bracket p
  rwa [Derivation.commutator_apply, Derivation.zero_apply, sub_eq_zero] at applied

/-- The polynomial on the line along an axis through a point. -/
noncomputable def along (v : Fin n → ℝ) (j : Fin n) : MvPolynomial (Fin n) ℝ →ₐ[ℝ] Polynomial ℝ :=
  aeval fun k => .C (v k) + if k = j then .X else 0

@[simp]
theorem along_X (j k : Fin n) : along v j (X k) = .C (v k) + if k = j then .X else 0 :=
  aeval_X _ k

theorem eval_along (j : Fin n) (s : ℝ) (p : MvPolynomial (Fin n) ℝ) :
    (along v j p).eval s = eval (v + Pi.single j s) p := by
  induction p using MvPolynomial.induction_on with
  | C a => simp
  | add p q first second => simp [first, second]
  | mul_X p k ih => rcases eq_or_ne k j with rfl | other <;> simp [*]

theorem derivative_along (j : Fin n) (p : MvPolynomial (Fin n) ℝ) :
    (along v j p).derivative = along v j (pderiv j p) := by
  induction p using MvPolynomial.induction_on with
  | C a => simp
  | add p q first second => simp [first, second]
  | mul_X p k ih =>
    rcases eq_or_ne k j with rfl | other
    · simp [ih, Derivation.leibniz]
      ring
    · simp [ih, Derivation.leibniz, other]
      ring

theorem natDegree_along {d : Nat} (bound : p.totalDegree ≤ d) (j : Fin n) : (along v j p).natDegree ≤ d := by
  have linear : ∀ k, (Polynomial.C (v k) + if k = j then Polynomial.X else 0).natDegree ≤ 1 := by
    intro k
    split <;> simp
  simpa [along] using aeval_natDegree_le p bound _ linear

/-- The gradient of a polynomial of the third degree is quadratic along the axes. -/
theorem quadraticAlongAxes_pderiv (cubic : p.totalDegree ≤ 3) :
    QuadraticAlongAxes (fun y i => eval y (pderiv i p)) v :=
  fun i j => ⟨along v j (pderiv i p), natDegree_along (totalDegree_pderiv cubic i) j,
  fun s => (eval_along j s _).symm⟩

/-- The second derivatives of a polynomial at a point. -/
noncomputable def curvatures (p : MvPolynomial (Fin n) ℝ) (v : Fin n → ℝ) : Matrix (Fin n) (Fin n) ℝ :=
  Matrix.of fun i j => eval v (pderiv i (pderiv j p))

theorem isSymm_curvatures (p : MvPolynomial (Fin n) ℝ) (v : Fin n → ℝ) : (curvatures p v).IsSymm :=
  Matrix.IsSymm.ext fun i j => congrArg (eval v) (pderiv_pderiv j i p)

theorem hasSlopes_pderiv (p : MvPolynomial (Fin n) ℝ) :
    HasSlopes (fun y i => eval y (pderiv i p)) (curvatures p v) v := by
  intro i j
  have slope := (along v j (pderiv i p)).hasDerivAt 0
  simp only [derivative_along, eval_along, Pi.single_zero, add_zero] at slope
  rwa [curvatures, Matrix.of_apply, pderiv_pderiv]

end

/-- The Hessian from differences asks for the gradient at two points for each coordinate, in one sweep with a
single point or not, and is symmetric. It is exact where the gradient is quadratic along the axes through the
point, and so for every polynomial of the third degree. -/
theorem hessian_exact_on_cubics (gradient : Coords ℝ → Checked (Coords ℝ)) {x : Coords ℝ} (size : x.size = n) :
    (surveyed gradient x = do return (← hessian gradient x, probes x)) ∧
    (probes x).length = 2 * n ∧
    (∀ j : Fin n, ∃ ahead behind, (probes x)[2 * j.val]? = some ahead ∧ (probes x)[2 * j.val + 1]? = some behind ∧
      ahead.size = n ∧ behind.size = n ∧
      ahead.vec n = x.vec n + Pi.single j (1e-5 * max |x.vec n j| 1) ∧
      behind.vec n = x.vec n - Pi.single j (1e-5 * max |x.vec n j| 1)) ∧
    (∀ H, hessian gradient x = .ok H → H.height = n ∧ H.width = n ∧ (H.mat n n).IsSymm) ∧
    (∀ G : (Fin n → ℝ) → Fin n → ℝ, Computes gradient G → ∃ H, hessian gradient x = .ok H ∧
      (QuadraticAlongAxes G (x.vec n) →
        (∃ D, HasSlopes G D (x.vec n) ∧ H.mat n n = (0.5 : ℝ) • (D + D.transpose)) ∧
        ∀ f, IsGradient f G → ∀ D : Matrix (Fin n) (Fin n) ℝ,
          HasFDerivAt G D.mulVecLin.toContinuousLinearMap (x.vec n) → H.mat n n = D)) ∧
    ∀ p : MvPolynomial (Fin n) ℝ, p.totalDegree ≤ 3 →
      Computes gradient (fun y i => MvPolynomial.eval y (MvPolynomial.pderiv i p)) →
      ∃ H, hessian gradient x = .ok H ∧ ∀ i j, H.mat n n i j =
        MvPolynomial.eval (x.vec n) (MvPolynomial.pderiv i (MvPolynomial.pderiv j p)) := by
  refine ⟨surveyed_eq gradient x, size ▸ length_probes x, fun j => ?_, fun H made => isSymm_of_hessian made size,
    fun G computes => ?_, fun p cubic computes => ?_⟩
  · subst size
    obtain ⟨forward, back⟩ := getElem?_probes x j
    have width : step (x.entry j) = 1e-5 * max |x.vec x.size j| 1 := by
      rw [Coords.entry_eq_vec, step, Scalar.atLeast_exact, max_comm]
      rfl
    refine ⟨_, _, forward, back, size_probe x j _, size_probe x j _, ?_, ?_⟩
    · rw [vec_probe, width]
    · rw [sub_eq_add_neg (x.entry j), vec_probe, width, Pi.single_neg, ← sub_eq_add_neg]
  · obtain ⟨H, made, _, _, mean⟩ := computes.hessian_ok size
    refine ⟨H, made, fun quadratic => ⟨⟨_, quadratic.hasSlopes, mean⟩, fun f slopes D derivative => ?_⟩⟩
    rw [mean, quadratic.hasSlopes.unique (.of_derivative derivative),
      Table.mean_of_isSymm (slopes.isSymm derivative)]
  · obtain ⟨H, made, _, _, mean⟩ := computes.hessian_ok size
    refine ⟨H, made, fun i j => ?_⟩
    rw [mean, (quadraticAlongAxes_pderiv cubic).hasSlopes.unique (hasSlopes_pderiv p),
      Table.mean_of_isSymm (isSymm_curvatures p _)]
    rfl

/-- The polynomial `a²b + b³` in two of the unknowns. -/
noncomputable def bent (a b : Fin n) : MvPolynomial (Fin n) ℝ :=
  .X a ^ 2 * .X b + .X b ^ 3

theorem totalDegree_bent (a b : Fin n) : (bent a b).totalDegree ≤ 3 := by
  refine (MvPolynomial.totalDegree_add _ _).trans (max_le ((MvPolynomial.totalDegree_mul _ _).trans ?_) ?_) <;>
    simp [MvPolynomial.totalDegree_X_pow]

theorem pderiv_bent {a b : Fin n} (other : b ≠ a) :
    MvPolynomial.pderiv a (bent a b) = .C 2 * .X a * .X b ∧
      MvPolynomial.pderiv b (bent a b) = .X a ^ 2 + .C 3 * .X b ^ 2 := by
  constructor
  · simp [bent, MvPolynomial.pderiv_X_of_ne other, map_ofNat MvPolynomial.C]
    ring
  · simp [bent, MvPolynomial.pderiv_X_of_ne other.symm, map_ofNat MvPolynomial.C]

/-- From four gradients of `a²b + b³` comes its Hessian. -/
theorem hessian_exact_on_cubics_bent :
    let gradient : Coords ℝ → Checked (Coords ℝ) := fun y =>
      .ok (.ofFn ![2 * y.vec 2 0 * y.vec 2 1, y.vec 2 0 ^ 2 + 3 * y.vec 2 1 ^ 2])
    let x : Coords ℝ := .ofFn ![1.5, -0.5]
    ∃ H, surveyed gradient x = .ok (H, probes x) ∧ (probes x).length = 4 ∧ hessian gradient x = .ok H ∧
      H.mat 2 2 = !![-1, 3; 3, -3] := by
  intro gradient x
  have size : x.size = 2 := Coords.size_ofFn _
  obtain ⟨asked, count, _, _, _, polynomials⟩ := hessian_exact_on_cubics gradient size
  obtain ⟨first, second⟩ := pderiv_bent (a := (0 : Fin 2)) (b := 1) (by decide)
  have computes : Computes gradient fun y i => MvPolynomial.eval y
    (MvPolynomial.pderiv i (bent (0 : Fin 2) 1)) := by
    intro y _
    refine congrArg (fun g => Except.ok (Coords.ofFn g)) (funext fun i => ?_)
    fin_cases i
    · simp [first]
    · simp [second]
  obtain ⟨H, made, entries⟩ := polynomials (bent 0 1) (totalDegree_bent 0 1) computes
  refine ⟨H, by rw [asked, made]; rfl, count, made, ?_⟩
  have place : x.vec 2 = ![1.5, -0.5] := Coords.vec_ofFn _
  ext i j
  rw [entries, place]
  fin_cases j
  · fin_cases i <;> norm_num [first, MvPolynomial.pderiv_X]
  · fin_cases i <;> norm_num [second, MvPolynomial.pderiv_X]

end Downhill.Difference
