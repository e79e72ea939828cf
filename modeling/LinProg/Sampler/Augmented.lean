import LinProg.Problem.Validate

/-!
A polytope gets one more column, for the distance along a line, and one more row for each of its
columns, which says that the column is at that distance on the line. The line itself is written into
these rows later.
-/

namespace LinProg.Problem

variable {α : Type} [Scalar α]

/-- The entries of the polytope and an identity below them. -/
def augmentedData (p : Problem α) : MatrixData α :=
  .triples (p.numRows + p.columns) (p.columns + 1)
    (p.matrix.toTriples ++ (List.range p.columns).map fun k => (p.numRows + k, k, 1))

def resize {β : Type} (xs : List β) (n : Nat) (x : β) : List β :=
  xs.take n ++ List.replicate (n - xs.length) x

def augmented (p : Problem α) : Except (Failure (ProblemError α)) (Problem α) := do
  let rows := p.numRows + p.columns
  let matrix ← p.augmentedData.toMatrix (p.columns + 1)
  let a : Problem α := {
    columns := p.columns + 1
    kind := .linear
    direction := .maximise
    objective := List.replicate p.columns 0 ++ [1]
    lower := p.lower ++ [Scalar.negInf]
    upper := p.upper ++ [Scalar.posInf]
    kinds := List.replicate (p.columns + 1) .continuous
    matrix
    rhs := resize p.rhs rows 0
    senses := resize p.senses rows .equal
    ranges := p.ranges.map (resize · rows 0) }
  a.validate.mapError .error
  return a

end LinProg.Problem
