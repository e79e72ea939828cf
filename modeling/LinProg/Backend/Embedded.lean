import LinProg.Backend.Comparison
import LinProg.Session.Backend

/-!
`MicroLpSession`. Its engine takes inequalities with at least one term, so rows without terms are
settled here; its integer columns take the values of 32-bit words, so bounds beyond are cut off.
-/

namespace LinProg

namespace Embedded

inductive Domain (α : Type) where
  | real (lower upper : α)
  | binary
  | integer (lower upper : Int)
  deriving DecidableEq

structure Variable (α : Type) where
  cost : α
  domain : Domain α
  deriving DecidableEq

structure Input (α : Type) where
  direction : Direction
  columns : List (Variable α)
  inequalities : List (Inequality α)
  deriving DecidableEq

inductive Answer (α : Type) where
  | solved (values : List α)
  | infeasible
  | unbounded
  | failed

inductive Code where
  | solved
  | infeasible
  | unbounded
  | internalError
  deriving DecidableEq

def Code.all : List Code := [.solved, .infeasible, .unbounded, .internalError]

def Code.name : Code → String
  | .solved => "Solved"
  | .infeasible => "Infeasible"
  | .unbounded => "Unbounded"
  | .internalError => "InternalError"

def Code.classify : Code → Status
  | .solved => .optimal
  | .infeasible => .infeasible
  | .unbounded => .unbounded
  | .internalError => .other

variable {α : Type} [Scalar α]

open Scalar

def leastInteger : Int := -2147483648

def greatestInteger : Int := 2147483647

def domain (kind : ColumnKind) (bounds : Interval α) : Domain α :=
  let integer := Domain.integer ((value bounds.1).ceilWithin leastInteger greatestInteger)
    ((value bounds.2).floorWithin leastInteger greatestInteger)
  match kind with
  | .continuous => .real bounds.1 bounds.2
  | .integer => integer
  | .binary => if same bounds.1 0 && same bounds.2 1 then .binary else integer

def columnAt? (m : Model α) (cost : α) (column : Nat) : Option (Variable α) := do
  let bounds ← m.columnBounds? column
  return ⟨cost, domain (← m.kinds[column]?) bounds⟩

def inequalities? (columns : Nat) (r : ModelRow α) : Option (List (Inequality α)) :=
  if r.terms.isEmpty then some []
  else
    let found := r.inequalities
    if found.isEmpty || r.terms.all (·.1 < columns) then some found else none

def input? (m : Model α) : Option (Input α) := do
  return {
    direction := m.direction
    columns := ← m.objective.zipIdx.mapM fun (cost, column) => columnAt? m cost column
    inequalities := (← m.rows.mapM (inequalities? m.numCols)).flatten }

/-- A row without terms is 0, which its interval need not hold. -/
def isBroken (r : ModelRow α) : Bool :=
  let (lower, upper) := r.interval
  r.terms.isEmpty && (lt 0 lower || lt upper 0)

def outcome (m : Model α) : Answer α → Outcome Code α
  | .solved values => .ofValues .solved m values
  | .infeasible => .withoutValues .infeasible
  | .unbounded => .withoutValues .unbounded
  | .failed => .withoutValues .internalError

def run (engine : Input α → Answer α) (m : Model α) :
    Except (Failure (SolverError α)) (Outcome Code α) :=
  if m.rows.any isBroken then .ok (.withoutValues .infeasible)
  else
    match input? m with
    | some input => .ok (outcome m (engine input))
    | none => .error (.fault .outOfRange)

end Embedded

def embedded {α : Type} [Scalar α] (engine : Embedded.Input α → Embedded.Answer α) : Backend α where
  name := "Microlp"
  sessionName := "MicroLpSession"
  Code := Embedded.Code
  codeName := Embedded.Code.name
  classify := Embedded.Code.classify
  hasPoint code := code == .solved
  Memory := Unit
  run m _ := (Embedded.run engine m, ())

end LinProg
