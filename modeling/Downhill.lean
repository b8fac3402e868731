import Downhill.Cholesky
import Downhill.Coords
import Downhill.Decimal.Double
import Downhill.Decimal.Notation
import Downhill.Decimal.Reading
import Downhill.Decimal.Rounding
import Downhill.Decimal.Shortest
import Downhill.Elimination
import Downhill.Failure
import Downhill.Families.Constraints
import Downhill.Families.Objectives
import Downhill.Folder
import Downhill.History
import Downhill.Json.Reader
import Downhill.Json.Value
import Downhill.Json.Writer
import Downhill.LinearSystem
import Downhill.Machine
import Downhill.Message
import Downhill.Method
import Downhill.Method.Acceleration
import Downhill.Method.DynamicBarrier
import Downhill.Method.GradientDescent
import Downhill.Method.GradientProjection
import Downhill.Method.InteriorPoint
import Downhill.Method.Newton
import Downhill.Method.ProximalGradient
import Downhill.Method.ProximalMomentum
import Downhill.Method.RandomSubspace
import Downhill.Method.WindowedNewton
import Downhill.Named
import Downhill.Objective
import Downhill.Problem
import Downhill.Proofs.Acceleration
import Downhill.Proofs.Adoption
import Downhill.Proofs.Affine
import Downhill.Proofs.Cholesky.Factors
import Downhill.Proofs.Cholesky.Positive
import Downhill.Proofs.Cholesky.Solution
import Downhill.Proofs.Closest
import Downhill.Proofs.Decimal.Literals
import Downhill.Proofs.Decimal.Shortest
import Downhill.Proofs.Definite
import Downhill.Proofs.Difference.Cubic
import Downhill.Proofs.Difference.Quotients
import Downhill.Proofs.Difference.Sweep
import Downhill.Proofs.Doubles
import Downhill.Proofs.DynamicBarrier.Admissible
import Downhill.Proofs.DynamicBarrier.ClosedForm
import Downhill.Proofs.DynamicBarrier.Dual
import Downhill.Proofs.DynamicBarrier.Duality
import Downhill.Proofs.DynamicBarrier.HalfSpace
import Downhill.Proofs.DynamicBarrier.Promise
import Downhill.Proofs.DynamicBarrier.Step
import Downhill.Proofs.Elimination.Factors
import Downhill.Proofs.Elimination.Pivoting
import Downhill.Proofs.Elimination.Solution
import Downhill.Proofs.Ending
import Downhill.Proofs.Exact
import Downhill.Proofs.GradientDescent
import Downhill.Proofs.GradientDescent.Rate
import Downhill.Proofs.GradientProjection.Certificate
import Downhill.Proofs.GradientProjection.Projection
import Downhill.Proofs.GradientProjection.Release
import Downhill.Proofs.GradientProjection.Step
import Downhill.Proofs.InteriorPoint.Certificate
import Downhill.Proofs.InteriorPoint.DualStep
import Downhill.Proofs.InteriorPoint.Gap
import Downhill.Proofs.InteriorPoint.Invariant
import Downhill.Proofs.InteriorPoint.Merit
import Downhill.Proofs.InteriorPoint.Newton
import Downhill.Proofs.InteriorPoint.QuadraticProgram
import Downhill.Proofs.InteriorPoint.Step
import Downhill.Proofs.InteriorPoint.Stop
import Downhill.Proofs.Json.Reading
import Downhill.Proofs.LinearSystem
import Downhill.Proofs.Loops
import Downhill.Proofs.Matrices
import Downhill.Proofs.Named
import Downhill.Proofs.Newton
import Downhill.Proofs.Newton.Quadratic
import Downhill.Proofs.Newton.Reparametrization
import Downhill.Proofs.Outcome
import Downhill.Proofs.Paraboloid
import Downhill.Proofs.Problems
import Downhill.Proofs.ProximalGradient
import Downhill.Proofs.ProximalGradient.Decrease
import Downhill.Proofs.ProximalMomentum.Landing
import Downhill.Proofs.ProximalMomentum.Rate
import Downhill.Proofs.ProximalMomentum.Rest
import Downhill.Proofs.ProximalMomentum.Restart
import Downhill.Proofs.ProximalMomentum.Scale
import Downhill.Proofs.ProximalMomentum.Step
import Downhill.Proofs.ProximalMomentum.Stop
import Downhill.Proofs.ProximalStop
import Downhill.Proofs.RandomSubspace
import Downhill.Proofs.RandomSubspace.Identity
import Downhill.Proofs.RandomSubspace.Minimization
import Downhill.Proofs.RandomSubspace.Monotone
import Downhill.Proofs.Ranges
import Downhill.Proofs.Run.Agreement
import Downhill.Proofs.Run.Congruence
import Downhill.Proofs.Run.Failures
import Downhill.Proofs.Run.Ledger
import Downhill.Proofs.Run.Log
import Downhill.Proofs.Run.Loop
import Downhill.Proofs.Run.Return
import Downhill.Proofs.Run.Safety
import Downhill.Proofs.Run.Semantics
import Downhill.Proofs.Run.Series
import Downhill.Proofs.Run.Trace
import Downhill.Proofs.Run.Trajectory
import Downhill.Proofs.Safety
import Downhill.Proofs.Safety.Composite
import Downhill.Proofs.Safety.Constrained
import Downhill.Proofs.Safety.Unconstrained
import Downhill.Proofs.Search.Descent
import Downhill.Proofs.Search.Feasibility
import Downhill.Proofs.Search.FirstDecrease
import Downhill.Proofs.Search.FirstMajorant
import Downhill.Proofs.Search.Majorization
import Downhill.Proofs.Search.Shrinking
import Downhill.Proofs.Search.SmoothDescent
import Downhill.Proofs.SecondOrder
import Downhill.Proofs.Settings.Acceptance
import Downhill.Proofs.Settings.Requirements
import Downhill.Proofs.Settings.RoundTrip
import Downhill.Proofs.Settings.Text
import Downhill.Proofs.Settings.Values
import Downhill.Proofs.Shapes
import Downhill.Proofs.Spectrum.Bound
import Downhill.Proofs.Spectrum.Clearing
import Downhill.Proofs.Spectrum.LeastEigenvalue
import Downhill.Proofs.Spectrum.Rotation
import Downhill.Proofs.Subspace
import Downhill.Proofs.Subspace.Composition
import Downhill.Proofs.Terms
import Downhill.Proofs.Terms.Nonexpansive
import Downhill.Proofs.Vectors
import Downhill.Proofs.WindowedNewton
import Downhill.Proofs.WindowedNewton.Descent
import Downhill.Proofs.WindowedNewton.LastPairs
import Downhill.Proofs.WindowedNewton.Regularization
import Downhill.Proofs.WindowedNewton.Window
import Downhill.Random.Generator
import Downhill.Random.Layers
import Downhill.Random.Normal
import Downhill.Random.Projection
import Downhill.Run
import Downhill.Scalar
import Downhill.Schema
import Downhill.Search.Armijo
import Downhill.Search.Backtracking
import Downhill.Search.Feasible
import Downhill.Search.Majorant
import Downhill.Setting
import Downhill.SettingsText
import Downhill.Shape
import Downhill.Spectrum
import Downhill.Square
import Downhill.Subspace
import Downhill.Table
import Downhill.Text.CharSet
import Downhill.Text.Combining
import Downhill.Text.Invisible
import Downhill.Text.Spelling
import Downhill.Text.Unassigned
import Downhill.Work
