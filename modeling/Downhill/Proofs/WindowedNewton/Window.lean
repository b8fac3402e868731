import Downhill.Proofs.Ranges
import Downhill.Proofs.Run.Trajectory
import Downhill.Proofs.WindowedNewton

namespace Downhill.WindowedNewton

variable {α : Type}

theorem requireEvenRows_eq_ok {name : String} {rows : UInt64} {done : Unit} :
    (requireEvenRows name rows : Except (Failure α) Unit) = .ok done ↔
      2 ≤ rows.toNat ∧ rows.toNat % 2 = 0 := by
  have small : rows < 2 ↔ rows.toNat < 2 := UInt64.lt_iff_toNat_lt
  have odd : rows % 2 ≠ 0 ↔ rows.toNat % 2 ≠ 0 := by
    rw [ne_eq, ne_eq, ← UInt64.toNat_inj, UInt64.toNat_mod]
    rfl
  unfold requireEvenRows
  split
  · rename_i refused
    rw [small, odd] at refused
    exact iff_of_false nofun fun ⟨least, even⟩ => refused.elim least.not_gt (absurd even)
  · rename_i accepted
    rw [small, odd, not_or, not_not, Nat.not_lt] at accepted
    exact iff_of_true rfl accepted

/-- A point above its gradient, pair after pair. -/
def stacked (pairs : List (Coords α × Coords α)) : List (Coords α) :=
  pairs.flatMap fun pair => [pair.1, pair.2]

@[simp]
theorem length_stacked (pairs : List (Coords α × Coords α)) : (stacked pairs).length = 2 * pairs.length := by
  induction pairs with
  | nil => rfl
  | cons pair rest ih =>
    change (stacked rest).length + 2 = 2 * (rest.length + 1)
    omega

theorem stacked_concat (pairs : List (Coords α × Coords α)) (x gradient : Coords α) :
    stacked (pairs ++ [(x, gradient)]) = stacked pairs ++ [x, gradient] :=
  List.flatMap_append

theorem drop_stacked (pairs : List (Coords α × Coords α)) : (stacked pairs).drop 2 = stacked (pairs.drop 1) := by
  cases pairs <;> rfl

theorem stacked_rows {pairs : List (Coords α × Coords α)} {j : Nat} {pair : Coords α × Coords α}
    (place : pairs[j]? = some pair) :
    (stacked pairs)[2 * j]? = some pair.1 ∧ (stacked pairs)[2 * j + 1]? = some pair.2 := by
  induction pairs generalizing j with
  | nil => cases place
  | cons first rest ih =>
    cases j with
    | zero =>
      cases place
      exact ⟨rfl, rfl⟩
    | succ j => exact ih place

/-- The rows that a window holds. -/
def rowsOf (window : Option (Table α)) : List (Coords α) :=
  window.elim [] fun table => table.rows.toList

/-- The rows that stay when one more pair comes. -/
def keptRows (config : Config α) (rows : List (Coords α)) : List (Coords α) :=
  if rows.length < config.rows.toNat then rows else rows.drop 2

theorem extend_rows {config : Config α} {window : Option (Table α)} {x gradient : Coords α} {next : Table α}
    (made : extend config window x gradient = .ok next) :
    next.width = x.size ∧ next.rows.toList = keptRows config (rowsOf window) ++ [x, gradient] := by
  unfold extend at made
  split at made
  · cases window with
    | none =>
      cases made
      refine ⟨rfl, ?_⟩
      unfold keptRows
      split <;> rfl
    | some old =>
      let kept := if old.height < config.rows.toNat then old else old.dropRows 2
      have rows : kept.rows.toList = keptRows config (rowsOf (some old)) := by
        have height : old.height = old.rows.toList.length := rfl
        unfold keptRows rowsOf
        rw [Option.elim_some, ← height]
        change (if _ then _ else _ : Table α).rows.toList = _
        split
        · rfl
        · simp [Table.dropRows]
      change (if fits : x.size = kept.width then _ else _) = Except.ok next at made
      split at made
      · rename_i fits
        cases made
        exact ⟨fits.symm, Array.toList_append.trans (congrArg (· ++ [x, gradient]) rows)⟩
      · cases made
  · cases made

theorem extend_ok (config : Config α) {window : Option (Table α)} {x gradient : Coords α}
    (same : gradient.size = x.size) (wide : ∀ old, window = some old → old.width = x.size) :
    ∃ next, extend config window x gradient = .ok next := by
  unfold extend
  rw [dif_pos same]
  cases window with
  | none => exact ⟨_, rfl⟩
  | some old =>
    have kept : (if old.height < config.rows.toNat then old else old.dropRows 2).width = x.size := by
      split
      · exact wide old rfl
      · exact wide old rfl
    exact ⟨_, dif_pos kept.symm⟩

section

variable [Scalar α] {config : Config α} {f : Objective α} {s s' : State α}

/-- A state of dimension `n`, with a window of that width. -/
structure Sized (n : Nat) (s : State α) : Prop where
  point : s.point.size = n
  window : ∀ table, s.window = some table → table.width = n

theorem Sized.step {n : Nat} (sized : Sized n s) (made : (step config f s).outcome = .ok s') : Sized n s' := by
  obtain ⟨_, _, window, _, _, _, _, _, _, _, moves⟩ := step_eq_ok.mp made
  have width := (extend_rows moves.extend_eq).1
  refine ⟨(Coords.size_combine moves.within.point_eq).2.trans sized.point, fun table same => ?_⟩
  cases moves.window_eq.symm.trans same
  exact width.trans sized.point

theorem sized_of_after {x : Coords α} {k : Nat} (reached : method.after config f x () k = .ok (s, ())) :
    Sized x.size s :=
  Method.after_invariant (m := method)
    (fun _ started => by cases started; exact ⟨rfl, nofun⟩) (fun _ _ _ sized made => sized.step made) reached

end

end Downhill.WindowedNewton
