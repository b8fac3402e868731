import Downhill.Cholesky
import Downhill.Elimination
import Downhill.Work

namespace Downhill

variable {α : Type} [Scalar α]

/-- The solution of a system, which is named in the failure. There is one only if the factorization exists
and every unknown comes out finite. -/
def solve (A : Table α) (b : Coords α) (system : String) : Except (Failure α) (Coords α) :=
  if same : A.height = b.size then
    match A.eliminate with
    | none => .error (.singularSystem system)
    | some E =>
      let x : Coords α := ⟨(E.solution fun i => b.get i (same ▸ i.isLt)).toArray⟩
      if x.toList.all Scalar.isFinite then .ok x else .error (.singularSystem system)
  else .error (.sizeMismatch A.height b.size)

/-- The solution of a system expected to be positive definite, by the cheaper factorization if there is one. -/
def solveDefinite (A : Table α) (b : Coords α) (system : String) : Work α (Coords α) :=
  match A.cholesky with
  | some C => liftM (C.solve b)
  | none => do
    Work.note (.fallback system)
    solve A b system

end Downhill
