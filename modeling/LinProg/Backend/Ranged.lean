import LinProg.Backend.Options

/-!
`HighsSession`. Every row of the model is one row of the engine, within an interval and also without
terms. What the engine does with it, and which options and inputs it takes, is not part of the
program.
-/

namespace LinProg

namespace Ranged

structure Variable (α : Type) where
  cost : α
  bounds : Interval α
  integer : Bool
  deriving DecidableEq

structure Row (α : Type) where
  interval : Interval α
  terms : List (Nat × α)
  deriving DecidableEq

structure Input (α : Type) where
  direction : Direction
  columns : List (Variable α)
  rows : List (Row α)
  deriving DecidableEq

inductive Code where
  | notSet
  | loadError
  | modelError
  | presolveError
  | solveError
  | postsolveError
  | modelEmpty
  | infeasible
  | unboundedOrInfeasible
  | unbounded
  | optimal
  | objectiveBound
  | objectiveTarget
  | reachedTimeLimit
  | reachedIterationLimit
  | unknown
  deriving DecidableEq

def Code.all : List Code := [.notSet, .loadError, .modelError, .presolveError, .solveError,
  .postsolveError, .modelEmpty, .infeasible, .unboundedOrInfeasible, .unbounded, .optimal,
  .objectiveBound, .objectiveTarget, .reachedTimeLimit, .reachedIterationLimit, .unknown]

def Code.name : Code → String
  | .notSet => "NotSet"
  | .loadError => "LoadError"
  | .modelError => "ModelError"
  | .presolveError => "PresolveError"
  | .solveError => "SolveError"
  | .postsolveError => "PostsolveError"
  | .modelEmpty => "ModelEmpty"
  | .infeasible => "Infeasible"
  | .unboundedOrInfeasible => "UnboundedOrInfeasible"
  | .unbounded => "Unbounded"
  | .optimal => "Optimal"
  | .objectiveBound => "ObjectiveBound"
  | .objectiveTarget => "ObjectiveTarget"
  | .reachedTimeLimit => "ReachedTimeLimit"
  | .reachedIterationLimit => "ReachedIterationLimit"
  | .unknown => "Unknown"

def Code.classify : Code → Status
  | .optimal => .optimal
  | .infeasible => .infeasible
  | .unbounded => .unbounded
  | _ => .other

structure Answer (α : Type) where
  code : Code
  values : List α

variable {α : Type} [Scalar α]

def columnAt? (m : Model α) (cost : α) (column : Nat) : Option (Variable α) := do
  let bounds ← m.columnBounds? column
  return ⟨cost, bounds, (← m.kinds[column]?).isInteger⟩

def row? (columns : Nat) (r : ModelRow α) : Option (Row α) :=
  if r.terms.all (·.1 < columns) then some ⟨r.interval, r.terms⟩ else none

def input? (m : Model α) : Option (Input α) := do
  return {
    direction := m.direction
    columns := ← m.objective.zipIdx.mapM fun (cost, column) => columnAt? m cost column
    rows := ← m.rows.mapM (row? m.numCols) }

def accepted (takes : Options → Input α → Bool) (options : Options) (m : Model α) :
    Except Fault (Input α) :=
  match input? m with
  | none => .error .outOfRange
  | some input => if takes options input then .ok input else .error .refused

def outcome (m : Model α) (a : Answer α) : Outcome Code α :=
  if a.code = .optimal then .ofValues .optimal m a.values else .withoutValues a.code

def run (takes : Options → Input α → Bool) (engine : Input α → Answer α) (options : Options)
    (m : Model α) : Except (Failure (SolverError α)) (Outcome Code α) :=
  match accepted takes options m with
  | .ok input => .ok (outcome m (engine input))
  | .error f => .error (.fault f)

end Ranged

def ranged {α : Type} [Scalar α] (takes : Options → Ranged.Input α → Bool)
    (engine : Ranged.Input α → Ranged.Answer α) (options : Options) : Backend α where
  name := "Highs"
  sessionName := "HighsSession"
  Code := Ranged.Code
  codeName := Ranged.Code.name
  classify := Ranged.Code.classify
  hasPoint code := code == .optimal
  Memory := Unit
  run m _ := (Ranged.run takes engine options m, ())

end LinProg
