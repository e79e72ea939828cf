import LinProg.Backend.Comparison
import LinProg.Session.Backend
import LinProg.Text.Numeral

/-!
`LpSolverSession`, for solvers outside of the program. The model is written out with named columns
and with sums as text, and the solver replies with values by name. A script stands for such a solver
where none is run.
-/

namespace LinProg

namespace Written

structure Variable (α : Type) where
  name : String
  integer : Bool
  lower : α
  upper : α
  deriving DecidableEq

structure Row (α : Type) where
  sum : String
  comparison : Comparison
  rhs : α
  deriving DecidableEq

structure Input (α : Type) where
  name : String
  maximised : Bool
  objective : String
  columns : List (Variable α)
  rows : List (Row α)
  deriving DecidableEq

inductive ReplyStatus where
  | optimal
  | subOptimal
  | infeasible
  | unbounded
  | notSolved
  | timeLimit
  | gapReached
  deriving DecidableEq

structure Answer (α : Type) where
  status : ReplyStatus
  values : List (String × α)

inductive Code where
  | optimal
  | subOptimal
  | infeasible
  | unbounded
  | notSolved
  deriving DecidableEq

def Code.all : List Code := [.optimal, .subOptimal, .infeasible, .unbounded, .notSolved]

def Code.name : Code → String
  | .optimal => "Optimal"
  | .subOptimal => "SubOptimal"
  | .infeasible => "Infeasible"
  | .unbounded => "Unbounded"
  | .notSolved => "NotSolved"

def Code.classify : Code → Status
  | .optimal => .optimal
  | .infeasible => .infeasible
  | .unbounded => .unbounded
  | .subOptimal | .notSolved => .other

def Code.hasPoint : Code → Bool
  | .optimal | .subOptimal => true
  | _ => false

/-- A run that was cut short has not been solved. -/
def ReplyStatus.code : ReplyStatus → Code
  | .optimal => .optimal
  | .subOptimal => .subOptimal
  | .infeasible => .infeasible
  | .unbounded => .unbounded
  | .notSolved | .timeLimit | .gapReached => .notSolved

open Text (sumText columnName)

variable {α : Type} [Scalar α]

def columnAt? (m : Model α) (column : Nat) : Option (Variable α) := do
  let (lower, upper) ← m.columnBounds? column
  return ⟨columnName column, (← m.kinds[column]?).isInteger, lower, upper⟩

variable [Numeral α]

def row (i : Inequality α) : Row α :=
  ⟨sumText i.terms, i.comparison, i.rhs⟩

def objectiveText (m : Model α) : String :=
  sumText ((m.objective.zipIdx.map fun (v, c) => (c, v)).filter (Scalar.nonzero ·.2))

def input? (m : Model α) : Option (Input α) := do
  return {
    name := "polylp_problem"
    maximised := m.direction == .maximise
    objective := objectiveText m
    columns := ← (List.range m.numCols).mapM (columnAt? m)
    rows := m.rows.flatMap fun r => r.inequalities.map row }

def columnValues (input : Input α) (values : List (String × α)) : List α :=
  input.columns.map fun v => (values.lookup v.name).getD 0

def outcome (m : Model α) (input : Input α) (a : Answer α) : Outcome Code α :=
  if a.status.code.hasPoint then .ofValues a.status.code m (columnValues input a.values)
  else .withoutValues a.status.code

def run {M : Type} (solver : Input α → M → Except String (Answer α) × M) (m : Model α)
    (memory : M) : Except (Failure (SolverError α)) (Outcome Code α) × M :=
  match input? m with
  | none => (.error (.fault .outOfRange), memory)
  | some input =>
    let (answer, memory) := solver input memory
    (match answer with
      | .ok a => .ok (outcome m input a)
      | .error message => .error (.error (.engine "lp-solvers" message)), memory)

/-- The whole seconds of a time limit, as far as a 32-bit word goes; 0 for what is no number. -/
def wholeSeconds (seconds : α) : Int :=
  (Scalar.value seconds).floorWithin 0 4294967295

end Written

def written {α : Type} [Scalar α] [Numeral α] {M : Type}
    (solver : Written.Input α → M → Except String (Written.Answer α) × M) : Backend α where
  name := "External Solver (through lp_solvers)"
  sessionName := "LpSolverSession<T>"
  Code := Written.Code
  codeName := Written.Code.name
  classify := Written.Code.classify
  hasPoint := Written.Code.hasPoint
  Memory := M
  run := Written.run solver

inductive ScriptedReply where
  | answer (status : Written.ReplyStatus) (values : List (String × Float))
  | failure (message : String)

abbrev Script := List ScriptedReply

namespace Script

def single (x : Float) : Float :=
  x.toFloat32.toFloat

def solve (_ : Written.Input Float) : Script → Except String (Written.Answer Float) × Script
  | [] => (.error "script exhausted", [])
  | .failure message :: rest => (.error message, rest)
  | .answer status values :: rest =>
    (.ok ⟨status, values.map fun (name, x) => (name, single x)⟩, rest)

end Script

def scripted : Backend Float :=
  written Script.solve

end LinProg
