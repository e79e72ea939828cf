import LinProg.Session.Basic

/-!
`Solution`: what a solve found, in terms that no backend has for itself.
-/

namespace LinProg

structure Solution (α : Type) where
  values : List α
  objective : α
  status : Status
  feasible : Bool

namespace Solution

variable {α : Type}

def value? (s : Solution α) (column : Nat) : Option α :=
  s.values[column]?

def isOptimal (s : Solution α) : Bool :=
  s.status == .optimal

end Solution

namespace Session

variable {α : Type} [Scalar α] {B : Backend α}

/-- What the session knows after a run that ended with a code; nothing found is `nan` for every
column. -/
def solution (s : Session B) (code : B.Code) : Solution α where
  values := s.values?.getD (List.replicate s.model.numCols Scalar.nan)
  objective := s.objective?.getD Scalar.nan
  status := B.classify code
  feasible := B.hasPoint code && s.values?.isSome

def solve : SessionCall B (Solution α) := do
  let code ← optimize
  return (← Call.state).solution code

end Session

end LinProg
