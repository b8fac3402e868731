import Mathlib
import Downhill.Objective
import Downhill.Proofs.Vectors

namespace Downhill

namespace Difference

variable {α : Type}

/-- The point with a new value in one place. -/
def put (x : Coords α) (i : Nat) (v : α) : Coords α :=
  ⟨x.entries.setIfInBounds i v⟩

theorem put_put (x : Coords α) (i : Nat) (v w : α) : put (put x i v) i w = put x i w :=
  congrArg Coords.mk (Array.setIfInBounds_setIfInBounds v)

theorem put_entry (x : Coords α) (j : Fin x.size) : put x j (x.entry j) = x := by
  have within : j.val < x.entries.size := j.isLt
  have here : x.entry j = x.entries[j.val] := rfl
  rw [put, here, Array.setIfInBounds_def, dif_pos within, Array.set_getElem_self]

theorem size_probe (x : Coords α) (j : Fin x.size) (v : α) : (probe x j v).size = x.size :=
  Coords.size_ofFn _

theorem put_eq_probe (x : Coords α) (j : Fin x.size) (v : α) : put x j v = probe x j v := by
  refine Coords.ext (Array.ext (by simp [put, probe, Coords.ofFn, Coords.size]) fun i first second => ?_)
  have within : i < x.entries.size := by simpa [put] using first
  have replaced : (put x j v).entries[i] = if j.val = i then v else x.entries[i] :=
    Array.getElem_setIfInBounds within
  rw [replaced]
  simp only [probe, Coords.ofFn, Array.getElem_ofFn, Fin.ext_iff, eq_comm (a := i)]
  rfl

/-- A coordinate replaced is a displacement along its axis. -/
theorem vec_probe {x : Coords ℝ} (j : Fin x.size) (t : ℝ) :
    (probe x j (x.entry j + t)).vec x.size = x.vec x.size + Pi.single j t := by
  rw [probe, Coords.vec_ofFn]
  funext i
  rcases eq_or_ne i j with rfl | other
  · rw [if_pos rfl, Pi.add_apply, Pi.single_eq_same, Coords.entry_eq_vec]
  · rw [if_neg other, Pi.add_apply, Pi.single_eq_of_ne other, add_zero, Coords.entry_eq_vec]

/-- A gradient that notes every point that it is asked for at. -/
def noted (gradient : Coords α → Checked (Coords α)) (p : Coords α) :
    StateT (List (Coords α)) Checked (Coords α) := do
  modify (· ++ [p])
  gradient p

theorem run_mapM_noted (gradient : Coords α → Checked (Coords α)) (points done : List (Coords α)) :
    (points.mapM (noted gradient)).run done = do
      let gradients ← points.mapM gradient
      return (gradients, done ++ points) := by
  induction points generalizing done with
  | nil => simp
  | cons p points ih =>
    simp [ih, noted]

section

variable [Scalar α]

/-- The two points at which a coordinate is a step away from its value. -/
def around (x : Coords α) (j : Fin x.size) : List (Coords α) :=
  [probe x j (x.entry j + step (x.entry j)), probe x j (x.entry j - step (x.entry j))]

theorem probes_eq (x : Coords α) : probes x = (List.finRange x.size).flatMap (around x) :=
  rfl

theorem length_probes (x : Coords α) : (probes x).length = 2 * x.size := by
  simp [probes_eq, around, mul_comm]

/-- In a list of pairs written out, the two of a pair stand next to each other. -/
theorem getElem?_flatMap_pairs {β γ : Type} (first second : β → γ) (items : List β) (k : Nat) :
    (items.flatMap fun b => [first b, second b])[2 * k]? = items[k]?.map first ∧
      (items.flatMap fun b => [first b, second b])[2 * k + 1]? = items[k]?.map second := by
  induction items generalizing k with
  | nil => simp
  | cons b items ih =>
    cases k with
    | zero => simp
    | succ k => simpa [Nat.mul_succ] using ih k

theorem getElem?_probes (x : Coords α) (j : Fin x.size) :
    (probes x)[2 * j.val]? = some (probe x j (x.entry j + step (x.entry j))) ∧
      (probes x)[2 * j.val + 1]? = some (probe x j (x.entry j - step (x.entry j))) := by
  have place : (List.finRange x.size)[j.val]? = some j := by simp
  have pairs := getElem?_flatMap_pairs (fun j => probe x j (x.entry j + step (x.entry j)))
    (fun j => probe x j (x.entry j - step (x.entry j))) (List.finRange x.size) j
  rwa [place] at pairs

section

variable {m : Type → Type} [Monad m] (ask : Coords α → m (Coords α)) (x : Coords α)

/-- One coordinate of the sweep: the point that is handed on is moved forward in it, moved back and put home,
and the gradients are asked for in between. -/
def visit (s : Coords α × List (Coords α)) (j : Fin x.size) : m (Coords α × List (Coords α)) := do
  let ahead := put s.1 j (x.entry j + step (x.entry j))
  let forward ← ask ahead
  let behind := put ahead j (x.entry j - step (x.entry j))
  let back ← ask behind
  return (put behind j (x.entry j), s.2 ++ [forward, back])

/-- The gradients that the differences are taken of, asked for by an action of any kind. -/
def sweep : m (List (Coords α)) := do
  let last ← (List.finRange x.size).foldlM (visit ask x) (x, [])
  return last.2

/-- From the given point a coordinate is visited at the two points around it, and the point is handed on as it
was. -/
theorem visit_home (done : List (Coords α)) (j : Fin x.size) :
    visit ask x (x, done) j = do
      let forward ← ask (probe x j (x.entry j + step (x.entry j)))
      let back ← ask (probe x j (x.entry j - step (x.entry j)))
      return (x, done ++ [forward, back]) := by
  simp only [visit, ← put_eq_probe, put_put, put_entry]

variable [LawfulMonad m]

theorem foldlM_visit (todo : List (Fin x.size)) (done : List (Coords α)) :
    todo.foldlM (visit ask x) (x, done) = do
      let gradients ← (todo.flatMap (around x)).mapM ask
      return (x, done ++ gradients) := by
  induction todo generalizing done with
  | nil => simp
  | cons j todo ih =>
    rw [List.foldlM_cons, visit_home, List.flatMap_cons, List.mapM_append]
    simp [around, ih, List.append_assoc]

/-- The sweep asks for the gradients at the probes, each once and in their order. -/
theorem sweep_eq : sweep ask x = (probes x).mapM ask := by
  rw [sweep, foldlM_visit, probes_eq]
  simp

end

/-- The Hessian taken in one sweep, and the points at which it asked for the gradient. -/
def surveyed (gradient : Coords α → Checked (Coords α)) (x : Coords α) : Checked (Table α × List (Coords α)) :=
  (do assemble x (← sweep (noted gradient) x) : StateT (List (Coords α)) Checked (Table α)).run []

theorem surveyed_eq (gradient : Coords α → Checked (Coords α)) (x : Coords α) :
    surveyed gradient x = do return (← hessian gradient x, probes x) := by
  rw [surveyed, sweep_eq, hessian]
  simp [run_mapM_noted]

end

end Difference

end Downhill
