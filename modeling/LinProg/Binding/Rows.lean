import LinProg.Binding.Basic

/-!
The calls of `SolverAdapter` on rows, which have the numbers of the session's rows.
-/

namespace LinProg.Binding

variable {α : Type} [Scalar α] {B : Backend α}

def addConstraint (c : Constraint α) (scope : RowScope) : BindingCall B Unit := do
  Call.ofExcept ((c.checkColumns (← Call.state).numCols).mapError .problem)
  if scope = .both then onProblem (Problem.addConstraint c)
  onSession (Session.addRow c)
  Call.modify fun b => { b with shared := b.shared ++ [scope == .both] }
  let b ← Call.state
  Call.emit (.rowAdded b.name (← Call.ofOption (less? b.numRows 1)) scope)

def addConstraints (cs : List (Constraint α)) (scope : RowScope) : BindingCall B Unit := do
  let columns := (← Call.state).numCols
  cs.forM fun c => Call.ofExcept ((c.checkColumns columns).mapError .problem)
  cs.forM (addConstraint · scope)

def addComparison (first : Nat) (sense : Sense) (second : Nat) (scope : RowScope) :
    BindingCall B Bool :=
  match Constraint.comparison first sense second with
  | some c => do
    addConstraint c scope
    return true
  | none => return false

def addBound (index : Nat) (sense : Sense) (value : α) (scope : RowScope) : BindingCall B Unit :=
  addConstraint (.bound index sense value) scope

/-- Removes the last rows of the session, and of the problem those of them that it has. -/
def removeLast (n : Nat) : BindingCall B Unit := do
  let b ← Call.state
  Call.require (n ≤ b.numRows) (.problem (.tooFewRows n b.numRows))
  let start ← Call.ofOption (less? b.numRows n)
  onProblem (Problem.removeLast ((b.shared.drop start).count true))
  onSession (Session.deleteRows start b.numRows)
  Call.modify fun b => { b with shared := b.shared.take start }
  Call.emit (.rowsRemoved b.name n)

def problemRow? (b : Binding B) (row : Nat) : Option (Option Nat) :=
  b.shared[row]?.map fun shared =>
    if shared then
      some (if b.problem.numRows = b.numRows then row else (b.shared.take row).count true)
    else none

def onProblemRow (row : Nat) (change : Nat → ProblemCall α Unit) : BindingCall B Unit := do
  match ← Call.ofOption ((← Call.state).problemRow? row) with
  | some r => onProblem (change r)
  | none => return ()

def changeCoefficients (changes : List (Nat × Nat × α)) : BindingCall B Unit := do
  let b ← Call.state
  match changes.find? fun (row, column, _) => b.numRows ≤ row || b.numCols ≤ column with
  | some (row, column, _) => Call.fail (.problem (.missingEntry row column b.numRows b.numCols))
  | none =>
    changes.forM fun (row, column, value) =>
      onProblemRow row fun r => Problem.setCoefficient r column value
    onSession (Session.changeCoefficients changes)

def changeRhs (changes : List (Nat × α)) : BindingCall B Unit := do
  let b ← Call.state
  match changes.find? fun (row, _) => b.numRows ≤ row with
  | some (row, _) => Call.fail (.problem (.missingEntry row 0 b.numRows 1))
  | none =>
    changes.forM fun (row, value) => onProblemRow row fun r => Problem.setRowRhs r value
    onSession (Session.changeRhs changes)

end LinProg.Binding
