import LinProg.Call
import LinProg.Matrix.Row
import LinProg.Problem.Constraint

/-!
`StagedModel`, the copy of a problem that a session changes and hands to its engine. Every row
carries its own sense, right-hand side and range.
-/

namespace LinProg

structure ModelRow (α : Type) where
  terms : SparseRow α
  sense : Sense
  rhs : α
  range : α
  deriving DecidableEq

structure Model (α : Type) where
  direction : Direction
  objective : List α
  lower : List α
  upper : List α
  kinds : List ColumnKind
  rows : List (ModelRow α)
  deriving DecidableEq

variable {α : Type} [Scalar α]

namespace ModelRow

def interval (r : ModelRow α) : Interval α :=
  r.sense.interval r.rhs r.range

def ofConstraint (c : Constraint α) : ModelRow α :=
  ⟨.ofTerms c.terms, c.sense, c.rhs, c.range.getD 0⟩

end ModelRow

namespace Model

def numCols (m : Model α) : Nat :=
  m.objective.length

def numRows (m : Model α) : Nat :=
  m.rows.length

/-- The bounds of a column; a binary column is an integer column between 0 and 1. -/
def columnBounds? (m : Model α) (column : Nat) : Option (Interval α) := do
  let lower ← m.lower[column]?
  let upper ← m.upper[column]?
  match ← m.kinds[column]? with
  | .binary => return (Scalar.greatest lower 0, Scalar.least upper 1)
  | .continuous | .integer => return (lower, upper)

def objectiveAt (m : Model α) (values : List α) : α :=
  Scalar.dot m.objective values

def withObjective (m : Model α) (objective : List α) : Model α :=
  { m with objective }

def withKinds (m : Model α) (kinds : List ColumnKind) : Model α :=
  { m with kinds }

def addRow (m : Model α) (c : Constraint α) : Model α :=
  { m with rows := m.rows ++ [.ofConstraint c] }

/-- Without the rows from `first` to before `last`. -/
def deleteRows? (m : Model α) (first last : Nat) : Option (Model α) :=
  if first ≤ last ∧ last ≤ m.numRows then
    some { m with rows := m.rows.take first ++ m.rows.drop last }
  else none

def setBounds? (m : Model α) (column : Nat) (lower upper : α) : Option (Model α) := do
  let lower ← place? m.lower column lower
  let upper ← place? m.upper column upper
  return { m with lower, upper }

def changeRow? (m : Model α) (row : Nat) (f : ModelRow α → ModelRow α) : Option (Model α) := do
  let rows ← place? m.rows row (f (← m.rows[row]?))
  return { m with rows }

def changeCoefficients? (m : Model α) (changes : List (Nat × Nat × α)) : Option (Model α) :=
  changes.foldlM (fun m (row, column, value) =>
    m.changeRow? row fun r => { r with terms := r.terms.set column value }) m

def changeRhs? (m : Model α) (changes : List (Nat × α)) : Option (Model α) :=
  changes.foldlM (fun m (row, rhs) => m.changeRow? row ({ · with rhs })) m

end Model

end LinProg
