import Downhill.Method.ProximalMomentum
import Downhill.Run

namespace Downhill.DynamicBarrier

/-- What the barrier demands of a constraint. -/
inductive Barrier
  /-- A multiple of its value. -/
  | values
  /-- A multiple of the squared length of its gradient. -/
  | gradients
  deriving DecidableEq, Repr

namespace Barrier

/-- The words for the barriers. -/
def words : List String :=
  ["values", "grads"]

def toFin : Barrier → Fin words.length
  | values => ⟨0, by decide⟩
  | gradients => ⟨1, by decide⟩

def ofFin (i : Fin words.length) : Barrier :=
  if i.val = 0 then values else gradients

theorem ofFin_toFin (b : Barrier) : ofFin b.toFin = b := by
  cases b <;> rfl

theorem toFin_ofFin (i : Fin words.length) : (ofFin i).toFin = i := by
  match i with
  | ⟨0, _⟩ => rfl
  | ⟨1, _⟩ => rfl

end Barrier

/-- The configuration. -/
structure Config (α : Type) where
  rate : α
  /-- The multiple of the values. -/
  alpha : α
  /-- The multiple of the squared gradients. -/
  beta : α
  barrier : Barrier
  /-- How exact the multipliers are. -/
  innerEps : α
  /-- How many iterations are spent on them. -/
  innerBudget : UInt64
  deriving Repr

variable {α : Type} [Scalar α]

def schema : Schema α (Config α) where
  algorithm := "DynamicBarrierGD"
  fields := [⟨"lr", .real⟩, ⟨"alpha", .real⟩, ⟨"beta", .real⟩,
    ⟨"barrier_func_type", .choice Barrier.words⟩, ⟨"sub_problem_eps", .real⟩,
    ⟨"inner_iteration", .count⟩]
  toRow c := (c.rate, c.alpha, c.beta, c.barrier.toFin, c.innerEps, c.innerBudget, ())
  ofRow r := ⟨r.1, r.2.1, r.2.2.1, .ofFin r.2.2.2.1, r.2.2.2.2.1, r.2.2.2.2.2.1⟩
  validate c := do
    requirePositive "lr" c.rate
    requirePositive "alpha" c.alpha
    requirePositive "beta" c.beta
    requirePositive "sub_problem_eps" c.innerEps
    requireNonzero "inner_iteration" c.innerBudget
  ofRow_toRow := by
    intro c
    simp only [Barrier.ofFin_toFin]
  toRow_ofRow := by
    rintro ⟨rate, alpha, beta, barrier, innerEps, innerBudget, _⟩
    exact congrArg (fun i => (rate, alpha, beta, i, innerEps, innerBudget, ())) (Barrier.toFin_ofFin barrier)

/-- The multiplier problem: half the squared length of `g + Jᵀλ`, less the barrier times `λ`. -/
structure Dual (α : Type) where
  gradient : Coords α
  jacobian : Table α
  barrier : Coords α

namespace Dual

/-- The vector whose length is made small. -/
def residual (dual : Dual α) (multipliers : Coords α) : Checked (Coords α) := do
  dual.gradient.add (← dual.jacobian.combineRows multipliers)

def value (dual : Dual α) (multipliers : Coords α) : Checked α := do
  let r ← dual.residual multipliers
  return 0.5 * (← r.dot r) - (← multipliers.dot dual.barrier)

/-- The quadratic with its derivatives; its Hessian is `J Jᵀ` everywhere. -/
def objective (dual : Dual α) : Objective α where
  value := dual.value
  gradient l := do (← dual.jacobian.apply (← dual.residual l)).sub dual.barrier
  hessian _ := dual.jacobian.mul dual.jacobian.transpose
  curvature _ v := do dual.jacobian.apply (← dual.jacobian.combineRows v)
  expand l := do
    let v ← dual.value l
    let g ← (← dual.jacobian.apply (← dual.residual l)).sub dual.barrier
    return (v, g)

end Dual

/-- What the barrier demands of each constraint. -/
def demands (config : Config α) (values : Coords α) (jacobian : Table α) : Coords α :=
  match config.barrier with
  | .values => values.scale config.alpha
  | .gradients => ⟨jacobian.rows.map fun row => config.beta * row.pairing row⟩

/-- The inner method always drops momentum when the objective goes up. -/
def innerConfig (config : Config α) : ProximalMomentum.Config α where
  restart := true
  beta := 0.8
  eps := config.innerEps

/-- The multiplier of a single constraint: zero where the gradient already meets the demand, or where
the constraint does not change. -/
def single (gradient row barrier : Coords α) : Checked α := do
  let square := row.pairing row
  let l ←
    if 0 < square then do
      if present : 0 < barrier.size then
        pure ((barrier[0] - (← gradient.dot row)) / square)
      else throw (.position 0 barrier.size)
    else pure 0
  return if 0 ≤ l then l else 0

/-- The multipliers that minimize the dual over the nonnegative ones. -/
def nested (config : Config α) (dual : Dual α) (count : Nat) : Work α (Coords α) := do
  let inner := innerConfig config
  ProximalMomentum.schema.validate inner
  let summary ← ProximalMomentum.method.solve inner ⟨dual.objective, .nonnegative⟩ (.zeros count)
    config.innerBudget.toNat
  Work.note (.innerSolve summary.iterations summary.finished)
  return summary.state.point

def multipliers (config : Config α) (gradient : Coords α) (jacobian : Table α)
    (barrier : Coords α) : Work α (Coords α) := do
  if none : jacobian.height = 0 then return .zeros 0
  else if jacobian.height = 1 then
    let l ← single gradient (jacobian.row ⟨0, Nat.pos_of_ne_zero none⟩) barrier
    return .constant 1 l
  else nested config ⟨gradient, jacobian, barrier⟩ jacobian.height

/-- The direction `-∇f - Jᵀλ`. -/
def direction (gradient : Coords α) (jacobian : Table α) (multipliers : Coords α) :
    Checked (Coords α) := do
  gradient.neg.sub (← jacobian.combineRows multipliers)

/-- Multipliers are chosen so that the direction takes every constraint down at least as fast as the barrier
demands; the step along it has a fixed rate. -/
def step (config : Config α) (p : Constrained α) (s : MultiplierState α) : Work α (MultiplierState α) := do
  let gradient ← p.objective.gradient s.point
  let jacobian ← p.constraints.jacobian s.point
  let values ← p.constraints.values s.point
  let l ← multipliers config gradient jacobian (demands config values jacobian)
  let d ← direction gradient jacobian l
  return { s with point := ← s.point.advance config.rate d, multipliers := l }

def method : Method α (Constrained α) (Config α) (MultiplierState α) Unit Unit where
  tag := "DynamicBarrier"
  schema := schema
  objective := Constrained.objective
  start _ p x := return ⟨x, .zeros p.constraints.count, false⟩
  draw := noDraw
  step config p _ s := step config p s
  point := MultiplierState.point
  finished := MultiplierState.finished
  measures := []
  distinct := History.distinct_nil

end Downhill.DynamicBarrier
