import Downhill.Proofs.ProximalGradient

namespace Downhill.ProximalGradient

variable {n : Nat} {config : Config ℝ} {p : Composite ℝ} {h : ProximalTerm n} {x : Coords ℝ} {s s' : PointState ℝ}

/-- What is known of the state after `k` steps: its point has the dimension of the problem, and from the first step
on the term is finite there. -/
structure Kept (h : ProximalTerm n) (k : Nat) (s : PointState ℝ) : Prop where
  size : s.point.size = n
  inside : 1 ≤ k → s.point.vec n ∈ h.domain

section

variable (conforming : p.smooth.Conforming n) (expands : p.smooth.Expands n) (proximal : h.IsExact p.prox)
  (valid : schema.validate config = .ok ())

include conforming expands proximal valid

theorem Kept.step_ok {k : Nat} (kept : Kept h k s) :
    ∃ s', (step config p s).outcome = .ok s' ∧ Kept h (k + 1) s' := by
  obtain ⟨_, above, below⟩ := validate_eq_ok.mp valid
  obtain ⟨loss, gradient, found, s', moves, starts, size⟩ :=
    ProximalGradient.step_ok conforming expands proximal valid kept.size
  -- Even an exhausted search ends with a proximal point, where the term is finite.
  obtain ⟨_, _, _, trial, _⟩ := starts.run_cases one_pos above below.le moves.search_eq
  exact ⟨s', step_eq_ok.mpr ⟨loss, gradient, found, moves⟩, size, fun _ => moves.point_eq ▸ trial.near.inside⟩

theorem kept_after (size : x.size = n) (k : Nat) :
    ∃ s, method.after config p x () k = .ok (s, ()) ∧ Kept h k s := by
  have start : ∃ s, (method.start config p x).outcome = .ok s ∧ Kept h 0 s := ⟨_, rfl, size, nofun⟩
  obtain ⟨s, _, reached, kept⟩ := Method.after_reaches (Kept h) start
    (fun _ _ _ kept => kept.step_ok conforming expands proximal valid) k
  exact ⟨s, reached, kept⟩

theorem step_descends (convexTerm : h.Convex) (size : s.point.size = n) (inside : s.point.vec n ∈ h.domain)
    (ample : ¬ Majorant.Exhausted (step config p s)) : ∃ loss gradient found s' low d,
      Moves config p s loss gradient found s' ∧ 0 < found.scale ∧ p.smooth.value s.point = .ok loss ∧
      p.smooth.value s'.point = .ok low ∧ s'.point.sub s.point = .ok d ∧
      low + h.value (s'.point.vec n) ≤ loss + h.value (s.point.vec n) - d.norm ^ 2 / (2 * found.scale) := by
  obtain ⟨_, shrinks, below⟩ := validate_eq_ok.mp valid
  obtain ⟨loss, gradient, found, s', moves, starts, size'⟩ := step_ok conforming expands proximal valid size
  obtain ⟨positive, _, low, trial, accepted⟩ := starts.run_cases one_pos shrinks below.le moves.search_eq
  have above := accepted fun spent => ample (moves.exhausted_iff.mpr spent)
  have fallen := trial.descends convexTerm positive above inside
  obtain ⟨d, apart, _⟩ := Coords.sub_ok size' size
  rw [← moves.point_eq, ← Coords.sq_norm_of_sub size' apart] at fallen
  exact ⟨loss, gradient, found, s', low, d, moves, positive, starts.value, moves.point_eq ▸ trial.value, apart,
    fallen⟩

end

/-- With a multiple of the sum of the absolute values, or over the points without negative coordinate, a step
from a point of the domain whose search is not exhausted leads to another one, at which objective and term
together are lower by the squared length of the step over twice the scale. -/
theorem composite_never_rises (config : Config ℝ) (f : Objective ℝ) (prox : Proximal ℝ) (x : Coords ℝ)
    (h : ProximalTerm x.size) (valid : schema.validate config = .ok ()) (conforming : f.Conforming x.size)
    (expands : f.Expands x.size) (provided : h.Provided prox) (k : Nat) :
    let p : Composite ℝ := ⟨f, prox⟩
    ∃ s, method.after config p x () k = .ok (s, ()) ∧ (1 ≤ k → s.point.vec x.size ∈ h.domain) ∧
      (s.point.vec x.size ∈ h.domain → ¬ Majorant.Exhausted (step config p s) →
        ∃ loss gradient found s' low d, method.after config p x () (k + 1) = .ok (s', ()) ∧
          Moves config p s loss gradient found s' ∧ 0 < found.scale ∧ f.value s.point = .ok loss ∧
          f.value s'.point = .ok low ∧ s'.point.sub s.point = .ok d ∧
          low + h.value (s'.point.vec x.size) ≤
            loss + h.value (s.point.vec x.size) - d.norm ^ 2 / (2 * found.scale)) := by
  intro p
  obtain ⟨s, reached, kept⟩ := kept_after (p := p) conforming expands provided.isExact valid rfl k
  refine ⟨s, reached, kept.inside, fun here ample => ?_⟩
  obtain ⟨loss, gradient, found, s', low, d, moves, descent⟩ :=
    step_descends (p := p) conforming expands provided.isExact valid provided.convex kept.size here ample
  have made := step_eq_ok.mpr ⟨loss, gradient, found, moves⟩
  exact ⟨loss, gradient, found, s', low, d, Method.after_succ_eq_ok.mpr ⟨s, (), reached, made, rfl⟩, moves,
    descent⟩

/-- Minus half the squared length. -/
noncomputable def hill (n : Nat) : Objective ℝ :=
  .quadratic ((Table.identity n).scale (-1)) (.zeros n)

/-- Two steps away from the top, and a third one. -/
theorem composite_never_rises_hill : ∃ (s s' : PointState ℝ) (loss low : ℝ),
    method.after ⟨0.1, 0.5⟩ ⟨hill 1, .softThreshold 0.25⟩ (.constant 1 0.5) () 2 = .ok (s, ()) ∧
      method.after ⟨0.1, 0.5⟩ ⟨hill 1, .softThreshold 0.25⟩ (.constant 1 0.5) () 3 = .ok (s', ()) ∧
      (hill 1).value s.point = .ok loss ∧ (hill 1).value s'.point = .ok low ∧
      low + 0.25 * ∑ i, |s'.point.vec 1 i| ≤ loss + 0.25 * ∑ i, |s.point.vec 1 i| := by
  have valid : schema.validate (⟨0.1, 0.5⟩ : Config ℝ) = .ok () := validate_eq_ok.mpr (by norm_num)
  have high : ((Table.identity 1).scale (-1) : Table ℝ).height = 1 :=
    (Table.height_ofFn _ _ _).trans (Table.height_identity 1)
  have wide : ((Table.identity 1).scale (-1) : Table ℝ).width = 1 := rfl
  have form : ((Table.identity 1).scale (-1) : Table ℝ).mat 1 1 = -1 := by
    rw [Table.mat_scale (Table.height_identity 1) (Table.width_identity 1), Table.mat_identity, neg_one_smul]
  have conforming : (hill 1).Conforming 1 := Objective.quadratic_conforming high wide (Coords.size_constant _ _)
  have expands : (hill 1).Expands 1 := Objective.quadratic_expands _ _ 1
  have smooth : (hill 1).Smooth 1 1 := by
    refine Objective.quadratic_smooth high wide (by simp [form]) fun d => ?_
    have nonneg : 0 ≤ d ⬝ᵥ d := Finset.sum_nonneg fun i _ => mul_self_nonneg (d i)
    rw [form, Matrix.neg_mulVec, Matrix.one_mulVec, dotProduct_neg]
    linarith
  have provided : (ProximalTerm.absolute 0.25 1).Provided (.softThreshold 0.25) := .absolute (by norm_num)
  obtain ⟨s, reached, _, descends⟩ := composite_never_rises ⟨0.1, 0.5⟩ (hill 1) (.softThreshold 0.25)
    (.constant 1 0.5) (.absolute 0.25 1) valid conforming expands provided 2
  have ample : ¬ Majorant.Exhausted (step ⟨0.1, 0.5⟩ ⟨hill 1, .softThreshold 0.25⟩ s) :=
    never_exhausted (p := ⟨hill 1, .softThreshold 0.25⟩) conforming expands provided.isExact valid smooth
      (by rw [mul_one]; exact pow_le_one₀ (by norm_num) (by norm_num)) (Coords.size_constant _ _) reached
  obtain ⟨loss, gradient, found, s', low, d, next, _, positive, here, there, _, fallen⟩ := descends trivial ample
  refine ⟨s, s', loss, low, reached, next, here, there, ?_⟩
  have drop : 0 ≤ d.norm ^ 2 / (2 * found.scale) := div_nonneg (sq_nonneg _) (by linarith)
  change low + 0.25 * ∑ i, |s'.point.vec 1 i| ≤ loss + 0.25 * ∑ i, |s.point.vec 1 i| - _ at fallen
  linarith

end Downhill.ProximalGradient
