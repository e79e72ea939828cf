import LinProg.Session.Backend

/-!
`CoinCbcSession`. Each end of an interval is set for itself, and not at all where it is infinite;
the engine has parameters, which are texts, and a search that may be stopped.
-/

namespace LinProg

namespace Searched

structure Variable (α : Type) where
  cost : α
  lower : α
  upper : Option α
  integer : Bool
  deriving DecidableEq

inductive Ends (α : Type) where
  | equal (value : α)
  | between (lower upper : Option α)
  deriving DecidableEq

structure Row (α : Type) where
  ends : Ends α
  terms : List (Nat × α)
  deriving DecidableEq

structure Input (α : Type) where
  direction : Direction
  columns : List (Variable α)
  rows : List (Row α)
  parameters : List (String × String)
  deriving DecidableEq

inductive Stage where
  | unlaunched
  | finished
  | abandoned
  | stopped
  | userEvent
  deriving DecidableEq

structure Answer (α : Type) where
  stage : Stage
  isOutOfTime : Bool
  isUnbounded : Bool
  isInfeasible : Bool
  values : List α

inductive Code where
  | optimal
  | infeasible
  | unbounded
  | timeLimit
  | stopped
  | abandoned
  | userEvent
  deriving DecidableEq

def Code.name : Code → String
  | .optimal => "Optimal"
  | .infeasible => "Infeasible"
  | .unbounded => "Unbounded"
  | .timeLimit => "TimeLimit"
  | .stopped => "Stopped"
  | .abandoned => "Abandoned"
  | .userEvent => "UserEvent"

def Code.classify : Code → Status
  | .optimal => .optimal
  | .infeasible => .infeasible
  | .unbounded => .unbounded
  | _ => .other

/-- A search that ran out of time has the best values that it found, which may be no point. -/
def Code.hasValues : Code → Bool
  | .optimal | .timeLimit => true
  | _ => false

variable {α : Type}

/-- Presolve may settle everything, so a search that was not launched has finished too. -/
def Answer.code (a : Answer α) : Code :=
  match a.stage with
  | .stopped => if a.isOutOfTime then .timeLimit else .stopped
  | .abandoned => .abandoned
  | .userEvent => .userEvent
  | .finished | .unlaunched =>
    if a.isUnbounded then .unbounded else if a.isInfeasible then .infeasible else .optimal

variable [Scalar α]

open Scalar

def lowerEnd (a : α) : Option α :=
  if lt negInf a then some a else none

def upperEnd (a : α) : Option α :=
  if lt a posInf then some a else none

def ends (i : Interval α) : Ends α :=
  if same i.1 i.2 then .equal i.1 else .between (lowerEnd i.1) (upperEnd i.2)

def columnAt? (m : Model α) (cost : α) (column : Nat) : Option (Variable α) := do
  let (lower, upper) ← m.columnBounds? column
  return ⟨cost, lower, upperEnd upper, (← m.kinds[column]?).isInteger⟩

def row? (columns : Nat) (r : ModelRow α) : Option (Row α) :=
  if r.terms.all (·.1 < columns) then some ⟨ends r.interval, r.terms⟩ else none

def input? (parameters : List (String × String)) (m : Model α) : Option (Input α) := do
  return {
    direction := m.direction
    columns := ← m.objective.zipIdx.mapM fun (cost, column) => columnAt? m cost column
    rows := ← m.rows.mapM (row? m.numCols)
    parameters }

def outcome (m : Model α) (a : Answer α) : Outcome Code α :=
  if a.code.hasValues then .ofValues a.code m a.values else .withoutValues a.code

def run (engine : Input α → Answer α) (parameters : List (String × String)) (m : Model α) :
    Except (Failure (SolverError α)) (Outcome Code α) :=
  match input? parameters m with
  | some input => .ok (outcome m (engine input))
  | none => .error (.fault .outOfRange)

end Searched

def searched {α : Type} [Scalar α] (engine : Searched.Input α → Searched.Answer α)
    (parameters : List (String × String)) : Backend α where
  name := "Coin Cbc"
  sessionName := "CoinCbcSession"
  Code := Searched.Code
  codeName := Searched.Code.name
  classify := Searched.Code.classify
  hasPoint code := code == .optimal
  Memory := Unit
  run m _ := (Searched.run engine parameters m, ())

end LinProg
