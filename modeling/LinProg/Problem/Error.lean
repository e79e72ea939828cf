import LinProg.Problem.Kind
import LinProg.Text.Character
import LinProg.Text.Numeral

/-!
`ProblemError`, with the wording of each.
-/

namespace LinProg

inductive Part where
  | constraintCoefficients
  | matrixRow
  | matrixColumns
  | objective
  | lowerBounds
  | upperBounds
  | columnKinds
  | rhs
  | senses
  | rangeValues
  | rowData
  | point
  | startPoint
  | lineOrigin
  | lineDirection
  deriving DecidableEq, Inhabited

def Part.text : Part → String
  | .constraintCoefficients => "constraint coefficients"
  | .matrixRow => "matrix row"
  | .matrixColumns => "matrix columns"
  | .objective => "objective"
  | .lowerBounds => "lower bounds"
  | .upperBounds => "upper bounds"
  | .columnKinds => "variable kinds"
  | .rhs => "rhs"
  | .senses => "senses"
  | .rangeValues => "range values"
  | .rowData => "row data"
  | .point => "point"
  | .startPoint => "start point"
  | .lineOrigin => "line origin"
  | .lineDirection => "line direction"

inductive ProblemError (α : Type) where
  | length (part : Part) (expected found : Nat)
  | bounds (column : Nat) (lower upper : α)
  | unknownSense (text : String)
  | rangeMissing (row : Nat)
  | unknownKind (quoted : String)
  | integerColumn (column : Nat) (kind : ColumnKind) (problem : ProblemKind)
  | missingColumn (index columns : Nat)
  | missingEntry (row column rows columns : Nat)
  | tooFewRows (requested available : Nat)
  | empty
  deriving DecidableEq

def ProblemError.message {α : Type} [Numeral α] : ProblemError α → String
  | .length part expected found => s!"{part.text} has length {found}, expected {expected}"
  | .bounds column lower upper =>
    s!"column {column} has lower bound {Numeral.plain lower} " ++
      s!"above upper bound {Numeral.plain upper}"
  | .unknownSense text => s!"invalid sense: {text}"
  | .rangeMissing row =>
    s!"invalid sense: row {row} is a range row but the problem has no range values"
  | .unknownKind quoted => s!"invalid variable kind: unknown kind code {quoted}"
  | .integerColumn column kind problem =>
    s!"invalid variable kind: column {column} is {kind.name} in a {problem.name} problem"
  | .missingColumn index columns =>
    s!"column index {index} is out of range for a problem with {columns} columns"
  | .missingEntry row column rows columns =>
    s!"entry ({row}, {column}) is outside of a {rows}x{columns} matrix"
  | .tooFewRows requested available =>
    s!"cannot remove {requested} rows, only {available} exist"
  | .empty => "a problem needs at least one column"

end LinProg
