import LinProg.Problem.Export
import LinProg.Problem.Rows
import LinProg.Problem.Validate
import LinProg.Session.Solution

/-!
Bindings, the `SolverAdapter` of the program: a problem together with the session it is loaded in.
Changes are made on both sides; for each row of the session it is known whether the problem has it
too.
-/

namespace LinProg

variable {α : Type} [Scalar α]

structure Binding (B : Backend α) where
  name : String
  problem : Problem α
  session : Session B
  /-- For each row of the session, whether it is a row of the problem. -/
  shared : List Bool

abbrev BindingCall (B : Backend α) (β : Type) := Call (Event α) (SolverError α) (Binding B) β

namespace Binding

variable {B : Backend α} {β σ : Type}

def bind (B : Backend α) (memory : B.Memory) (p : Problem α) :
    Call (Event α) (SolverError α) σ (Binding B) := do
  Call.ofExcept (p.validate.mapError .problem)
  let session ← Call.ofResult (Session.bind B memory p)
  Call.emit (.bound p.kind p.numRows p.columns B.name)
  return ⟨B.name, p, session, List.replicate p.numRows true⟩

def rename (b : Binding B) (name : String) : Binding B :=
  { b with name }

def numRows (b : Binding B) : Nat :=
  b.shared.length

def numCols (b : Binding B) : Nat :=
  b.problem.columns

def isClosed (b : Binding B) : Bool :=
  b.session.closed

def onProblem (c : ProblemCall α β) : BindingCall B β :=
  c.on (·.problem) (fun b problem => { b with problem }) .problem

def onSession (c : SessionCall B β) : BindingCall B β :=
  c.on (·.session) (fun b session => { b with session }) id

def checkLength (part : Part) (found : Nat) : BindingCall B Unit := do
  let columns := (← Call.state).numCols
  Call.require (found == columns) (.problem (.length part columns found))

def changeObjective (objective : List α) : BindingCall B Unit := do
  checkLength .objective objective.length
  onSession (Session.changeObjective objective)
  onProblem (Call.modify (·.withObjective objective))

/-- A problem that gets integer columns becomes a mixed one. -/
def changeKinds (kinds : List ColumnKind) : BindingCall B Unit := do
  checkLength .columnKinds kinds.length
  if kinds.any (·.isInteger) then
    onProblem (Call.modify fun p => p.withKind p.kind.mixed)
  onSession (Session.changeKinds kinds)
  onProblem (Call.modify (·.withKinds kinds))

def close : BindingCall B Unit := do
  let b ← Call.state
  if b.isClosed then return ()
  onSession Session.close
  Call.emit (.closed b.name)

def text? [Numeral α] (b : Binding B) : Option String :=
  b.problem.text?.map fun text => s!"\\ {b.name}\n" ++ text

end Binding

end LinProg
