import LinProg.Call
import LinProg.Event
import LinProg.Problem.Basic

/-!
`Solver`, `SolverError` and `RunOutcome`: what a session runs a model on. A backend has its own
status codes, says what they mean, and may keep something from one run to the next.
-/

namespace LinProg

inductive SolverError (α : Type) where
  | problem (e : ProblemError α)
  | unsupported (kind : ProblemKind)
  | closed
  | engine (solver message : String)
  deriving DecidableEq

def SolverError.message {α : Type} [Numeral α] : SolverError α → String
  | .problem e => e.message
  | .unsupported kind => s!"{kind.name} problems are not supported by this solver"
  | .closed => "the solver session is closed"
  | .engine solver message => s!"{solver} failed: {message}"

structure Outcome (C α : Type) where
  code : C
  values : Option (List α)
  objective : Option α

namespace Outcome

variable {C α : Type}

def withoutValues (code : C) : Outcome C α :=
  ⟨code, none, none⟩

def ofValues [Scalar α] (code : C) (m : Model α) (values : List α) : Outcome C α :=
  ⟨code, some values, some (m.objectiveAt values)⟩

end Outcome

structure Backend (α : Type) where
  name : String
  sessionName : String
  Code : Type
  codeName : Code → String
  classify : Code → Status
  /-- Whether a run that ends with the code has found a point inside of all rows and bounds. -/
  hasPoint : Code → Bool
  Memory : Type
  run : Model α → Memory → Except (Failure (SolverError α)) (Outcome Code α) × Memory

end LinProg
