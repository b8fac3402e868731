import Downhill.Proofs.Closest

namespace Downhill

/-- The squared length of the displacement of two values is at most its product with that of the points. -/
def Proximal.FirmlyNonexpansive (prox : Proximal ℝ) (t : ℝ) : Prop :=
  ∀ p q : Coords ℝ, p.size = q.size → ∃ u v d e s, prox p t = .ok u ∧ prox q t = .ok v ∧
    u.sub v = .ok d ∧ p.sub q = .ok e ∧ d.dot e = .ok s ∧ d.norm ^ 2 ≤ s

theorem sqDist_crosswise {n : Nat} (u u' q q' : Fin n → ℝ) :
    sqDist q' u - sqDist q u + (sqDist q u' - sqDist q' u') = 2 * ((q - q') ⬝ᵥ (u - u')) := by
  simp only [sqDist_eq_sum, dotProduct, Finset.mul_sum, ← Finset.sum_add_distrib, ← Finset.sum_sub_distrib]
  refine Finset.sum_congr rfl fun i _ => ?_
  simp only [Pi.sub_apply]
  ring

namespace ProximalTerm

variable {n : Nat} {h : ProximalTerm n} {t : ℝ} {u u' q q' : Fin n → ℝ}

/-- No other point is as good as the nearest one. -/
theorem Nearest.lt_of_ne (near : h.Nearest t u q) (convex : h.Convex) (positive : 0 < t) {y : Fin n → ℝ}
    (inside : y ∈ h.domain) (apart : y ≠ q) :
    h.value q + sqDist q u / (2 * t) < h.value y + sqDist y u / (2 * t) := by
  have twice : 0 < 2 * t := by linarith
  have gap := sqDist_pos apart
  have beaten := near.beats convex positive inside
  rw [← mul_lt_mul_iff_right₀ twice, mul_add, mul_add, mul_div_cancel₀ _ twice.ne', mul_div_cancel₀ _ twice.ne']
  linarith

/-- Each of two nearest points beats the other, which leaves no more than the product of the displacements. -/
theorem Nearest.firm (near : h.Nearest t u q) (near' : h.Nearest t u' q') (convex : h.Convex) (positive : 0 < t) :
    sqDist q q' ≤ (q - q') ⬝ᵥ (u - u') := by
  have first := near.beats convex positive near'.inside
  have second := near'.beats convex positive near.inside
  rw [sqDist_comm q' q] at first
  linarith [sqDist_crosswise u u' q q']

/-- A map that is exact for a convex term in every dimension is firmly nonexpansive. -/
theorem firmlyNonexpansive_of_isExact {prox : Proximal ℝ}
    (terms : ∀ n, ∃ h : ProximalTerm n, h.Convex ∧ h.IsExact prox) (positive : 0 < t) :
    prox.FirmlyNonexpansive t := by
  intro p q same
  obtain ⟨h, convex, exact⟩ := terms p.size
  obtain ⟨u, atP, uSize, near⟩ := exact p t rfl positive
  obtain ⟨v, atQ, vSize, near'⟩ := exact q t same.symm positive
  obtain ⟨d, apart, dSize⟩ := Coords.sub_ok uSize vSize
  obtain ⟨e, moved, eSize⟩ := Coords.sub_ok rfl same.symm
  refine ⟨u, v, d, e, d.pairing e, atP, atQ, apart, moved, if_pos (dSize.trans eSize.symm), ?_⟩
  rw [Coords.sq_norm_of_sub uSize apart, Coords.pairing_eq dSize.le, Coords.vec_sub apart, Coords.vec_sub moved]
  exact near.firm near' convex positive

end ProximalTerm

namespace Proximal

variable {weight t : ℝ}

/-- The map of absolute values makes the weighted sum of them and the squared distance over twice the scale less
than they are anywhere else. -/
theorem softThreshold_lt (nonneg : 0 ≤ weight) (positive : 0 < t) (p : Coords ℝ) :
    ∃ u, softThreshold weight p t = .ok u ∧ u.size = p.size ∧ ∀ y : Coords ℝ, y.size = p.size → y ≠ u →
      weight * ∑ i, |u.vec p.size i| + sqDist (u.vec p.size) (p.vec p.size) / (2 * t) <
        weight * ∑ i, |y.vec p.size i| + sqDist (y.vec p.size) (p.vec p.size) / (2 * t) := by
  obtain ⟨u, mapped, size, near⟩ := ProximalTerm.softThreshold_isExact nonneg p.size p t rfl positive
  refine ⟨u, mapped, size, fun y fits apart => ?_⟩
  have vectors : y.vec p.size ≠ u.vec p.size := fun same => apart (Coords.eq_of_vec fits size same)
  exact near.lt_of_ne (ProximalTerm.absolute_convex nonneg p.size) positive trivial vectors

/-- The other map finds the closest of the points without negative coordinate. -/
theorem nonnegative_closest (positive : 0 < t) (p : Coords ℝ) :
    ∃ u, nonnegative p t = .ok u ∧ p.Closest (fun y => y.size = p.size ∧ ∀ v ∈ y.toList, 0 ≤ v) u := by
  obtain ⟨u, mapped, size, near⟩ := ProximalTerm.nonnegative_isExact p.size p t rfl positive
  have inside : ∀ v ∈ u.toList, 0 ≤ v := (Coords.forall_mem_iff size).mpr near.inside
  refine ⟨u, mapped, Coords.closest_of_sqDist rfl (fun _ belongs => belongs.1) ⟨size, inside⟩ ?_⟩
  rintro y ⟨fits, above⟩ apart
  have beaten := near.lt_of_ne (ProximalTerm.orthant_convex p.size) positive
    ((Coords.forall_mem_iff fits).mp above) apart.symm
  change 0 + _ < 0 + _ at beaten
  rw [zero_add, zero_add, div_lt_div_iff_of_pos_right (by linarith)] at beaten
  rwa [sqDist_comm _ (u.vec p.size), sqDist_comm _ (y.vec p.size)]

/-- The map of absolute values finds the one point that makes their weighted sum and the squared distance over
twice the scale least, and the map of the points without negative coordinate finds the one that is closest;
both are firmly nonexpansive. -/
theorem least_and_firm (nonneg : 0 ≤ weight) (positive : 0 < t) :
    (∀ p : Coords ℝ, ∃ u, softThreshold weight p t = .ok u ∧ u.size = p.size ∧
      ∀ y : Coords ℝ, y.size = p.size → y ≠ u →
        weight * ∑ i, |u.vec p.size i| + sqDist (u.vec p.size) (p.vec p.size) / (2 * t) <
          weight * ∑ i, |y.vec p.size i| + sqDist (y.vec p.size) (p.vec p.size) / (2 * t)) ∧
    (∀ p : Coords ℝ, ∃ u, nonnegative p t = .ok u ∧
      p.Closest (fun y => y.size = p.size ∧ ∀ v ∈ y.toList, 0 ≤ v) u) ∧
    (softThreshold weight).FirmlyNonexpansive t ∧ nonnegative.FirmlyNonexpansive t := by
  refine ⟨softThreshold_lt nonneg positive, nonnegative_closest positive, ?_, ?_⟩
  · exact ProximalTerm.firmlyNonexpansive_of_isExact (fun n => ⟨.absolute weight n,
      ProximalTerm.absolute_convex nonneg n, ProximalTerm.softThreshold_isExact nonneg n⟩) positive
  · exact ProximalTerm.firmlyNonexpansive_of_isExact (fun n => ⟨.orthant n, ProximalTerm.orthant_convex n,
      ProximalTerm.nonnegative_isExact n⟩) positive

/-- Behind a corner of the plane: one coordinate is drawn in, or left alone, the other one ends at zero. -/
theorem least_and_firm_corner :
    let p : Coords ℝ := .ofFn ![3, -1 / 4]
    softThreshold (1 / 2) p 1 = .ok (.ofFn ![5 / 2, 0]) ∧
      (∀ y : Coords ℝ, y.size = 2 → y ≠ .ofFn ![5 / 2, 0] →
        45 / 32 < 1 / 2 * ∑ i, |y.vec 2 i| + sqDist (y.vec 2) ![3, -1 / 4] / 2) ∧
      nonnegative p 1 = .ok (.ofFn ![3, 0]) ∧
      p.Closest (fun y => y.size = 2 ∧ ∀ v ∈ y.toList, 0 ≤ v) (.ofFn ![3, 0]) ∧
      (softThreshold (1 / 2)).FirmlyNonexpansive 1 ∧ nonnegative.FirmlyNonexpansive (1 : ℝ) := by
  intro p
  have size : p.size = 2 := Coords.size_ofFn _
  have vector : p.vec 2 = ![3, -1 / 4] := Coords.vec_ofFn _
  have nonneg : (0 : ℝ) ≤ 1 / 2 := by norm_num
  obtain ⟨least, closest, firm, firm'⟩ := least_and_firm (t := 1) nonneg one_pos
  obtain ⟨u, shrunk, uSize, lower⟩ := least p
  obtain ⟨w, clamped, near⟩ := closest p
  have atU : u = .ofFn ![5 / 2, 0] := by
    refine Coords.eq_of_vec (n := 2) uSize (Coords.size_ofFn _) ?_
    have entries : u.vec 2 = fun i => ProximalTerm.shrunk (1 / 2 * 1) (p.vec 2 i) := by
      rw [← Except.ok.inj shrunk]
      exact funext (Coords.vec_map_of_size _ size)
    rw [entries, vector, Coords.vec_ofFn]
    funext i
    fin_cases i
    · exact (ProximalTerm.shrunk_of_le (by norm_num) (by norm_num)).trans (by norm_num)
    · norm_num [ProximalTerm.shrunk, abs_of_neg]
  have atW : w = .ofFn ![3, 0] := by
    refine Coords.eq_of_vec (n := 2) near.belongs.1 (Coords.size_ofFn _) ?_
    have entries : w.vec 2 = fun i => max 0 (p.vec 2 i) := by
      rw [← Except.ok.inj clamped]
      exact funext fun i => (Coords.vec_map_of_size _ size i).trans (Scalar.atLeast_exact _ _)
    rw [entries, vector, Coords.vec_ofFn]
    funext i
    fin_cases i <;> norm_num
  subst atU atW
  refine ⟨shrunk, fun y fits apart => ?_, clamped, near, firm, firm'⟩
  have above := lower y fits apart
  rw [size, vector, Coords.vec_ofFn] at above
  norm_num [sqDist_eq_sum, Fin.sum_univ_two] at above ⊢
  exact above

end Proximal

end Downhill
