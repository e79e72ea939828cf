import LinProg.Event
import LinProg.Matrix.Basic
import LinProg.Problem.Column

/-!
`Problem`: an objective, bounds and kinds for the columns, and rows with senses and right-hand
sides. The lists of a problem are set one by one and need not fit together; `validate` says whether
they do.
-/

namespace LinProg

structure Problem (α : Type) where
  columns : Nat
  kind : ProblemKind
  direction : Direction
  objective : List α
  lower : List α
  upper : List α
  kinds : List ColumnKind
  matrix : SparseMatrix α
  rhs : List α
  senses : List Sense
  ranges : Option (List α)
  deriving DecidableEq

inductive MatrixData (α : Type) where
  | dense (rows : List (List α))
  | triples (rows columns : Nat) (entries : List (Nat × Nat × α))

abbrev ProblemCall (α β : Type) := Call (Event α) (ProblemError α) (Problem α) β

variable {α : Type} [Scalar α]

def MatrixData.toMatrix (columns : Nat) :
    MatrixData α → Except (Failure (ProblemError α)) (SparseMatrix α)
  | .dense rows => SparseMatrix.ofDense columns rows
  | .triples rows cols entries =>
    if cols = columns then SparseMatrix.ofTriples rows cols entries
    else .error (.error (.length .matrixColumns columns cols))

namespace Problem

/-- `rows` empty equations and `columns` free columns, with nothing to maximise. -/
def empty (rows columns : Nat) : Except (ProblemError α) (Problem α) :=
  if columns = 0 then .error .empty
  else .ok {
    columns
    kind := .linear
    direction := .maximise
    objective := List.replicate columns 0
    lower := List.replicate columns Scalar.negInf
    upper := List.replicate columns Scalar.posInf
    kinds := List.replicate columns .continuous
    matrix := .zero rows columns
    rhs := List.replicate rows 0
    senses := List.replicate rows .equal
    ranges := none }

def numRows (p : Problem α) : Nat :=
  p.matrix.numRows

def isMaximised (p : Problem α) : Bool :=
  p.direction == .maximise

def rangeAt (p : Problem α) (row : Nat) : α :=
  ((p.ranges.getD [])[row]?).getD 0

def rowInterval? (p : Problem α) (row : Nat) : Option (Interval α) := do
  let sense ← p.senses[row]?
  let rhs ← p.rhs[row]?
  return sense.interval rhs (p.rangeAt row)

def withKind (p : Problem α) (kind : ProblemKind) : Problem α :=
  { p with kind }

def withDirection (p : Problem α) (direction : Direction) : Problem α :=
  { p with direction }

def withMaximised (p : Problem α) (maximised : Bool) : Problem α :=
  p.withDirection (if maximised then .maximise else .minimise)

def withObjective (p : Problem α) (objective : List α) : Problem α :=
  { p with objective }

def withLower (p : Problem α) (lower : List α) : Problem α :=
  { p with lower }

def withUpper (p : Problem α) (upper : List α) : Problem α :=
  { p with upper }

def withKinds (p : Problem α) (kinds : List ColumnKind) : Problem α :=
  { p with kinds }

def withRhs (p : Problem α) (rhs : List α) : Problem α :=
  { p with rhs }

def withSenses (p : Problem α) (senses : List Sense) : Problem α :=
  { p with senses }

def withRanges (p : Problem α) (ranges : Option (List α)) : Problem α :=
  { p with ranges }

def checkColumn (p : Problem α) (column : Nat) : Except (ProblemError α) Unit :=
  if column < p.columns then .ok () else .error (.missingColumn column p.columns)

def setBounds (column : Nat) (lower upper : α) : ProblemCall α Unit := do
  Call.ofExcept ((← Call.state).checkColumn column)
  Call.modify? fun p => do
    let lower ← place? p.lower column lower
    let upper ← place? p.upper column upper
    return { p with lower, upper }

def defineColumn (column : Nat) (definition : Column α) : ProblemCall α Unit := do
  Call.ofExcept ((← Call.state).checkColumn column)
  Call.modify? fun p => do
    let lower ← place? p.lower column definition.lower
    let upper ← place? p.upper column definition.upper
    let kinds ← place? p.kinds column definition.kind
    let objective ← place? p.objective column definition.objective
    return { p with lower, upper, kinds, objective }

/-- Replaces the matrix, and with it the number of rows. -/
def setMatrix (data : MatrixData α) : ProblemCall α Unit := do
  let matrix ← Call.ofResult (data.toMatrix (← Call.state).columns)
  Call.modify ({ · with matrix })

def same (p q : Problem α) : Bool :=
  p.columns == q.columns && p.kind == q.kind && p.direction == q.direction &&
    p.objective.isEqv q.objective Scalar.same && p.lower.isEqv q.lower Scalar.same &&
    p.upper.isEqv q.upper Scalar.same && p.kinds == q.kinds && p.matrix.same q.matrix &&
    p.rhs.isEqv q.rhs Scalar.same && p.senses == q.senses &&
    match p.ranges, q.ranges with
    | none, none => true
    | some r, some r' => r.isEqv r' Scalar.same
    | _, _ => false

end Problem

end LinProg
