import Downhill.LinearSystem
import Downhill.Method
import Downhill.Search.Backtracking

namespace Downhill.InteriorPoint

/-- The configuration. -/
structure Config (α : Type) where
  /-- How far the gap is meant to shrink in an iteration. -/
  mu : α
  /-- The tolerance of the gap. -/
  eps : α
  /-- The tolerance of the dual residual. -/
  epsFeas : α
  alpha : α
  beta : α
  deriving Repr

variable {α : Type} [Scalar α]

def schema : Schema α (Config α) where
  algorithm := "PrimalDualInteriorPoint"
  fields := [⟨"mu", .real⟩, ⟨"eps", .real⟩, ⟨"eps_feas", .real⟩, ⟨"alpha", .real⟩, ⟨"beta", .real⟩]
  toRow c := (c.mu, c.eps, c.epsFeas, c.alpha, c.beta, ())
  ofRow r := ⟨r.1, r.2.1, r.2.2.1, r.2.2.2.1, r.2.2.2.2.1⟩
  validate c := do
    requirePositive "mu" c.mu
    requirePositive "eps" c.eps
    requirePositive "eps_feas" c.epsFeas
    requireFraction "alpha" c.alpha
    requireFraction "beta" c.beta

/-- The gap between the objective and the bound that the multipliers certify: `-c(x)·λ`. -/
def gap (values multipliers : Coords α) : Checked α := do
  return -(← values.dot multipliers)

/-- `∇f + Jᵀλ`. -/
def dualResidual (gradient : Coords α) (jacobian : Table α) (multipliers : Coords α) :
    Checked (Coords α) := do
  gradient.add (← jacobian.combineRows multipliers)

/-- `-diag(λ) c - 1/t`. -/
def centralityResidual (values multipliers : Coords α) (t : α) : Checked (Coords α) := do
  let products ← Coords.combine (· * ·) multipliers values
  return products.map fun v => -v - 1 / t

/-- Both residuals, the dual one first. -/
def residual (p : Constrained α) (x multipliers : Coords α) (t : α) : Checked (Coords α) := do
  let values ← p.constraints.values x
  let gradient ← p.objective.gradient x
  let dual ← dualResidual gradient (← p.constraints.jacobian x) multipliers
  return dual.append (← centralityResidual values multipliers t)

/-- The matrix of the Newton system, with the blocks `∇²f + Σ λᵢ ∇²cᵢ` and `Jᵀ` above `-diag(λ) J` and
`-diag(c)`. Multipliers are read only where there is an unknown to multiply. -/
def system (curvature jacobian : Table α) (values multipliers : Coords α) : Checked (Table α) :=
  let n := curvature.height
  let m := values.size
  if square : curvature.width = n then
    if wide : jacobian.width = n then
      if high : jacobian.height = m then
        if enough : n = 0 ∨ m ≤ multipliers.size then
          .ok <| .ofFn (n + m) (n + m) fun i j =>
            if upper : i.val < n then
              if left : j.val < n then curvature.entry ⟨i, upper⟩ ⟨j, by omega⟩
              else jacobian.entry ⟨j - n, by omega⟩ ⟨i, by omega⟩
            else
              have row : i.val - n < m := by omega
              if left : j.val < n then
                -multipliers[i.val - n] * jacobian.entry ⟨i - n, by omega⟩ ⟨j, by omega⟩
              else if i.val = j.val then -values[i.val - n]
              else 0
        else .error (.position multipliers.size multipliers.size)
      else .error (.sizes jacobian.height m)
    else .error (.sizes jacobian.width n)
  else .error (.sizes n curvature.width)

/-- The directions of the point and of the multipliers. -/
def direction (hessian constraintCurvature jacobian : Table α)
    (values multipliers dual centrality : Coords α) : Work α (Coords α × Coords α) := do
  let curvature ← hessian.add constraintCurvature
  let matrix ← system curvature jacobian values multipliers
  let both ← solve matrix (dual.append centrality).neg "primal-dual KKT system"
  return (both.take hessian.height, both.drop hessian.height)

/-- The largest step, up to one, along which no multiplier turns negative. -/
def maxDualStep (multipliers change : Coords α) : α :=
  (List.zip multipliers.toList change.toList).foldl
    (fun bound l => if l.2 < 0 then Scalar.lesser bound (-l.1 / l.2) else bound) 1

/-- The share of the largest step that is tried first. -/
def stepShare : α :=
  0.99

/-- The number of shrinks that are made at most. -/
def maxShrinks : Nat :=
  100

/-- The point and the multipliers at a step, and whether the point is strictly feasible and the
residual small enough. -/
def attempt (config : Config α) (p : Constrained α) (s : MultiplierState α) (dx dl : Coords α) (start t : α)
    (share : α) : Checked (Unit × Bool) := do
  let x ← s.point.add (dx.scale share)
  if ← p.constraints.strictlyFeasible x then
    let l ← s.multipliers.add (dl.scale share)
    let r ← residual p x l t
    return ((), decide (r.norm ≤ (1 - config.alpha * share) * start))
  return ((), false)

/-- The first step that an attempt accepts, or zero. The residual at the start is given. -/
def stepSize (config : Config α) (p : Constrained α) (s : MultiplierState α) (dx dl r : Coords α) (t : α) :
    Work α α := do
  let last ← Backtracking.run (attempt config p s dx dl r.norm t) config.beta maxShrinks
    (stepShare * maxDualStep s.multipliers dl)
  if last.accepted then return last.step
  Work.note (.interiorExhausted maxShrinks)
  return 0

/-- All multipliers start at one, at a strictly feasible point. -/
def start (p : Constrained α) (x : Coords α) : Work α (MultiplierState α) := do
  if p.constraints.count = 0 then Work.fail (.refusedSetting "constraints" .noConstraint)
  if ← p.constraints.strictlyFeasible x then return ⟨x, .constant p.constraints.count 1, false⟩
  Work.fail .infeasibleStart

/-- A Newton step towards the optimality conditions with perturbed complementarity, shortened until the point
is strictly feasible and the residual has shrunk in proportion. The method is finished when the dual
residual and the gap are both within their tolerances. -/
def step (config : Config α) (p : Constrained α) (s : MultiplierState α) : Work α (MultiplierState α) := do
  let values ← p.constraints.values s.point
  let jacobian ← p.constraints.jacobian s.point
  let hessian ← p.objective.hessian s.point
  let gradient ← p.objective.gradient s.point
  let curvature ← p.constraints.curvature s.point s.multipliers
  let eta ← gap values s.multipliers
  let t := config.mu * (s.multipliers.size : α) / eta
  let dual ← dualResidual gradient jacobian s.multipliers
  if dual.norm ≤ config.epsFeas ∧ eta ≤ config.eps then return { s with finished := true }
  let centrality ← centralityResidual values s.multipliers t
  let (dx, dl) ← direction hessian curvature jacobian values s.multipliers dual centrality
  let share ← stepSize config p s dx dl (dual.append centrality) t
  Work.note (.interiorStep eta share)
  return { s with
    point := ← s.point.advance share dx, multipliers := ← s.multipliers.advance share dl }

/-- The gap at a state. -/
def gapMeasure : Measure α (Constrained α) (MultiplierState α) where
  name := "duality_gap"
  value p s := do gap (← p.constraints.values s.point) s.multipliers

/-- The length of the dual residual at a state. -/
def residualMeasure : Measure α (Constrained α) (MultiplierState α) where
  name := "dual_residual"
  value p s := do
    let gradient ← p.objective.gradient s.point
    return (← dualResidual gradient (← p.constraints.jacobian s.point) s.multipliers).norm

def method : Method α (Constrained α) (Config α) (MultiplierState α) Unit Unit where
  tag := "PrimalDual"
  schema := schema
  objective := Constrained.objective
  start _ := start
  draw := noDraw
  step config p _ s := step config p s
  point := MultiplierState.point
  finished := MultiplierState.finished
  measures := [gapMeasure, residualMeasure]
  distinct := by
    change [History.objectiveName, History.timeName, "duality_gap", "dual_residual"].Nodup
    decide

end Downhill.InteriorPoint
