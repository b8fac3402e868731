import Downhill.Proofs.WindowedNewton.Descent

namespace Downhill.WindowedNewton

section

variable {α : Type} [Scalar α] {config : Config α} {f : Objective α} {s s' : State α}

/-- The state after `k` steps, and what all states before it were: their points with the gradients there.
Of these pairs the window holds those at the end, as many as fit. -/
structure Windowed (config : Config α) (f : Objective α) (x : Coords α) (k : Nat) (s : State α)
    (pairs : List (Coords α × Coords α)) : Prop where
  sized : Sized x.size s
  count : pairs.length = k
  visited : ∀ (i : Nat) pair, pairs[i]? = some pair → ∃ t, method.after config f x () i = .ok (t, ()) ∧
    t.point = pair.1 ∧ f.gradient t.point = .ok pair.2
  rows : rowsOf s.window = stacked (pairs.drop (k - config.rows.toNat / 2))

theorem Windowed.start {x : Coords α} : Windowed config f x 0 ⟨x, none, false⟩ [] :=
  ⟨⟨rfl, nofun⟩, rfl, fun _ _ => nofun, by rw [List.drop_nil]; rfl⟩

theorem Windowed.step {x : Coords α} {k : Nat} {pairs : List (Coords α × Coords α)}
    (windowed : Windowed config f x k s pairs) (conforming : f.Conforming x.size) (expands : f.Expands x.size)
    (least : 2 ≤ config.rows.toNat) (even : config.rows.toNat % 2 = 0)
    (reached : method.after config f x () k = .ok (s, ())) (made : (step config f s).outcome = .ok s') :
    ∃ gradient, Windowed config f x (k + 1) s' (pairs ++ [(s.point, gradient)]) := by
  obtain ⟨_, gradient, window, _, _, _, _, _, _, _, moves⟩ := step_eq_ok.mp made
  obtain ⟨_, gradient', _, atGradient, _, atExpand⟩ := conforming.expand_ok expands windowed.sized.point
  cases atExpand.symm.trans moves.expand_eq
  have count := windowed.count
  refine ⟨gradient, windowed.sized.step made, by simp [count], fun i pair place => ?_, ?_⟩
  · rw [List.getElem?_append] at place
    split at place
    · exact windowed.visited i pair place
    · have last : i = k := by
        have := List.getElem?_eq_some_iff.mp place
        simp at this
        omega
      subst last
      obtain rfl : (s.point, gradient) = pair := by simpa [count] using place
      exact ⟨s, reached, rfl, atGradient⟩
  · have extended := (extend_rows moves.extend_eq).2
    have kept : keptRows config (rowsOf s.window) = stacked (pairs.drop (k + 1 - config.rows.toNat / 2)) := by
      rw [windowed.rows, keptRows, length_stacked, List.length_drop, count, drop_stacked, List.drop_drop]
      -- Rows are even in number and in their bound, so a window is short of its bound by a whole pair or full.
      split
      · congr 2
        omega
      · congr 2
        omega
    rw [moves.window_eq, rowsOf, Option.elim_some, extended, kept, ← stacked_concat, List.drop_append_of_le_length]
    omega

/-- However many steps have been made, the window holds the last pairs. -/
theorem windowed_of_after {x : Coords α} {k : Nat} (conforming : f.Conforming x.size)
    (expands : f.Expands x.size) (least : 2 ≤ config.rows.toNat) (even : config.rows.toNat % 2 = 0)
    (reached : method.after config f x () k = .ok (s, ())) : ∃ pairs, Windowed config f x k s pairs := by
  induction k generalizing s with
  | zero =>
    obtain ⟨started, _⟩ := Method.after_zero_eq_ok.mp reached
    cases started
    exact ⟨[], .start⟩
  | succ k ih =>
    obtain ⟨before, _, earlier, made, _⟩ := Method.after_succ_eq_ok.mp reached
    obtain ⟨pairs, windowed⟩ := ih earlier
    obtain ⟨gradient, next⟩ := windowed.step conforming expands least even earlier made
    exact ⟨_, next⟩

/-- After one step or more the window has two rows for each of the last steps, as many of these as fit
with the rows that are allowed: each point that a step was made from above the gradient there, the oldest
on top. -/
theorem window_holds_last_pairs (config : Config α) (f : Objective α) (x : Coords α) (k : Nat) (s : State α)
    (accepted : (requireEvenRows "matrix_size" config.rows : Except (Failure α) Unit) = .ok ())
    (conforming : f.Conforming x.size) (expands : f.Expands x.size) (later : 1 ≤ k)
    (reached : method.after config f x () k = .ok (s, ())) :
    let w := min k (config.rows.toNat / 2)
    ∃ window, s.window = .some window ∧ window.height = 2 * w ∧ window.height ≤ config.rows.toNat ∧
      ∀ j < w, ∃ t gradient, method.after config f x () (k - w + j) = .ok (t, ()) ∧
        f.gradient t.point = .ok gradient ∧ window.rows[2 * j]? = .some t.point ∧
        window.rows[2 * j + 1]? = .some gradient := by
  intro w
  obtain ⟨least, even⟩ := requireEvenRows_eq_ok.mp accepted
  obtain ⟨pairs, windowed⟩ := windowed_of_after conforming expands least even reached
  have count := windowed.count
  have rows := windowed.rows
  have start : k - w = k - config.rows.toNat / 2 := by omega
  cases held : s.window with
  | none =>
    have empty : (stacked (pairs.drop (k - config.rows.toNat / 2))).length = 0 := by rw [← rows, held]; rfl
    rw [length_stacked, List.length_drop, count] at empty
    omega
  | some window =>
    rw [held, rowsOf, Option.elim_some, ← start] at rows
    have height : window.height = 2 * w := by
      have length := congrArg List.length rows
      rw [length_stacked, List.length_drop, count, Array.length_toList] at length
      change window.rows.size = 2 * w
      omega
    refine ⟨window, rfl, height, by omega, fun j inside => ?_⟩
    have place : (pairs.drop (k - w))[j]? = .some pairs[k - w + j] := by
      rw [List.getElem?_drop, List.getElem?_eq_getElem]
    obtain ⟨t, earlier, point, atGradient⟩ := windowed.visited (k - w + j) _ (List.getElem?_eq_getElem (by omega))
    obtain ⟨upper, lower⟩ := stacked_rows place
    rw [← rows, Array.getElem?_toList] at upper lower
    exact ⟨t, _, earlier, atGradient, point ▸ upper, lower⟩

end

section

variable {config : Config ℝ} {s : State ℝ}

theorem linear_symmetricHessians (c : Coords ℝ) : (Objective.linear c).SymmetricHessians c.size :=
  (Objective.linear_constantHessian c).symmetricHessians (by rw [Table.mat_zeros]; exact Matrix.isSymm_zero)

/-- The Hessian on every span is zero, so that its spectrum settles at once and leaves nothing open that a
threshold of one is not above. -/
theorem Surveyed.settled_of_linear {c gradient : Coords ℝ} {n : Nat} {value : ℝ} {window H full : Table ℝ}
    {spectrum : Spectrum ℝ}
    (surveyed : Surveyed config (.linear c) n s value gradient window H full spectrum) (one : 1 ≤ config.threshold)
    (sized : c.size = n) :
    spectrum.settled = true ∧ √2 * (1e-14 * max Scalar.smallestNormal
      (√(∑ i, ∑ j, full.mat window.height window.height i j ^ 2))) < config.threshold := by
  have flat : full.mat window.height window.height = 0 := by
    have zero : H = .zeros c.size c.size := (Except.ok.inj surveyed.hessian_eq).symm
    rw [surveyed.product, zero, ← sized, Table.mat_zeros, Matrix.mul_zero, Matrix.zero_mul]
  refine ⟨Table.settled_of_diagonal surveyed.high surveyed.wide (by simp [flat]) surveyed.spectrum_eq, ?_⟩
  have norm : max Scalar.smallestNormal (√(∑ i, ∑ j, full.mat window.height window.height i j ^ 2)) ≤ 1 := by
    simpa [flat] using Scalar.smallestNormal_le_one
  have root : √2 < 2 := by norm_num [Real.sqrt_lt']
  nlinarith [Real.sqrt_nonneg 2]

theorem step_linear_ok {c : Coords ℝ} (one : 1 ≤ config.threshold) (sized : Sized c.size s) :
    ∃ s', (step config (.linear c) s).outcome = .ok s' := by
  have conforming := Objective.linear_conforming c
  have expands := Objective.linear_expands c
  obtain ⟨value, gradient, window, H, full, spectrum, surveyed⟩ :=
    surveyed_ok config conforming expands (linear_symmetricHessians c) sized
  obtain ⟨settled, clear⟩ := surveyed.settled_of_linear one rfl
  obtain ⟨hessian, raised, tall, broad, definite⟩ := surveyed.regularize_posDef settled clear
  obtain ⟨_, _, _, _, _, _, s', moves, _⟩ := surveyed.moves conforming expands sized raised tall broad definite
  exact ⟨s', step_eq_ok.mpr ⟨_, _, _, _, _, _, _, _, _, _, moves⟩⟩

/-- However far it goes, a slope is never left. -/
theorem linear_reached (one : 1 ≤ config.threshold) (c x : Coords ℝ) (size : x.size = c.size) (k : Nat) :
    ∃ s, method.after config (.linear c) x () k = .ok (s, ()) := by
  induction k with
  | zero => exact ⟨_, Method.after_zero_eq_ok.mpr ⟨rfl, rfl⟩⟩
  | succ k ih =>
    obtain ⟨s, reached⟩ := ih
    obtain ⟨s', made⟩ := step_linear_ok one (size ▸ sized_of_after reached)
    exact ⟨s', Method.after_succ_eq_ok.mpr ⟨s, (), reached, made, rfl⟩⟩

end

/-- The third step down a slope leaves the second and the third pair in a window of two. -/
theorem window_holds_last_pairs_linear : ∃ (s t u : State ℝ) (window : Table ℝ),
    method.after gentle (.linear (.constant 1 1)) (.zeros 1) () 3 = .ok (s, ()) ∧ s.window = some window ∧
      window.height = 4 ∧
      method.after gentle (.linear (.constant 1 1)) (.zeros 1) () 1 = .ok (t, ()) ∧
      method.after gentle (.linear (.constant 1 1)) (.zeros 1) () 2 = .ok (u, ()) ∧
      window.rows[0]? = some t.point ∧ window.rows[1]? = some (.constant 1 1) ∧
      window.rows[2]? = some u.point ∧ window.rows[3]? = some (.constant 1 1) := by
  have one : 1 ≤ gentle.threshold := le_rfl
  obtain ⟨s, reached⟩ := linear_reached one (.constant 1 1) (.zeros 1) rfl 3
  obtain ⟨window, held, height, _, rows⟩ := window_holds_last_pairs gentle (.linear (.constant 1 1)) (.zeros 1) 3 s
    (requireEvenRows_eq_ok.mpr (by decide)) (Objective.linear_conforming _) (Objective.linear_expands _)
    (by decide) reached
  obtain ⟨t, g, first, atFirst, upper, lower⟩ := rows 0 (by decide)
  obtain ⟨u, h, second, atSecond, above, below⟩ := rows 1 (by decide)
  cases atFirst
  cases atSecond
  exact ⟨s, t, u, window, reached, held, height, first, second, upper, lower, above, below⟩

end Downhill.WindowedNewton
