import LinProg.Problem.Basic

/-!
The calls of `Problem` on rows. Rows are appended and removed at the end, and a list of rows that
holds a bad one is refused as a whole.
-/

namespace LinProg.Problem

variable {α : Type} [Scalar α]

def onMatrix {β : Type} (c : MatrixCall (Event α) α β) : ProblemCall α β :=
  c.on (·.matrix) (fun p matrix => { p with matrix }) id

/-- The range values after a row is appended; they come into being with the first row that has
one, and are 0 for the rows before it. -/
def extendRanges (rows : Nat) (ranges : Option (List α)) (range : Option α) : Option (List α) :=
  match ranges, range with
  | some values, range => some (values ++ [range.getD 0])
  | none, some range => some (List.replicate rows 0 ++ [range])
  | none, none => none

def pushRowData (rhs : α) (sense : Sense) (range : Option α) (p : Problem α) : Problem α :=
  { p with
    rhs := p.rhs ++ [rhs]
    senses := p.senses ++ [sense]
    ranges := extendRanges p.rhs.length p.ranges range }

def setCoefficient (row column : Nat) (value : α) : ProblemCall α Unit :=
  onMatrix (SparseMatrix.set row column value)

def setRowRhs (row : Nat) (value : α) : ProblemCall α Unit := do
  let p ← Call.state
  Call.require (row < p.rhs.length) (.missingEntry row 0 p.numRows 1)
  Call.modify fun p => { p with rhs := p.rhs.set row value }

def addConstraint (c : Constraint α) : ProblemCall α Unit := do
  Call.ofExcept (c.checkColumns (← Call.state).columns)
  onMatrix (SparseMatrix.pushTerms c.terms)
  Call.modify (pushRowData c.rhs c.sense c.range)
  Call.emit (.rowAppended (← Call.ofOption (less? (← Call.state).numRows 1)) c)

def addConstraints (cs : List (Constraint α)) : ProblemCall α Unit := do
  let columns := (← Call.state).columns
  cs.forM fun c => Call.ofExcept (c.checkColumns columns)
  cs.forM addConstraint

/-- Appends a row for two columns; for a column and itself nothing, and the answer is false. -/
def addComparison (first : Nat) (sense : Sense) (second : Nat) : ProblemCall α Bool :=
  match Constraint.comparison first sense second with
  | some c => do
    addConstraint c
    return true
  | none => return false

def addBound (index : Nat) (sense : Sense) (value : α) : ProblemCall α Unit :=
  addConstraint (.bound index sense value)

def addRows (rows : List (List α)) (rhs : List α) (senses : List Sense) : ProblemCall α Unit := do
  let columns := (← Call.state).columns
  Call.require (rhs.length == rows.length && senses.length == rows.length)
    (.length .rowData rows.length (min rhs.length senses.length))
  match rows.find? (·.length != columns) with
  | some row => Call.fail (.length .matrixRow columns row.length)
  | none =>
    (rows.zip (rhs.zip senses)).forM fun (row, b, sense) => do
      onMatrix (SparseMatrix.pushDense row)
      Call.modify (pushRowData b sense none)

def removeLast (n : Nat) : ProblemCall α Unit := do
  onMatrix (SparseMatrix.removeLast n)
  Call.modify fun p =>
    { p with
      rhs := p.rhs.take p.numRows
      senses := p.senses.take p.numRows
      ranges := p.ranges.map (·.take p.numRows) }

end LinProg.Problem
