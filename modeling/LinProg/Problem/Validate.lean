import LinProg.Problem.Basic

namespace LinProg.Problem

variable {α : Type} [Scalar α]

def checkLength (part : Part) (expected found : Nat) : Except (ProblemError α) Unit :=
  if expected = found then .ok () else .error (.length part expected found)

def checkRanges (p : Problem α) : Except (ProblemError α) Unit :=
  match p.ranges with
  | some values => checkLength .rangeValues p.numRows values.length
  | none =>
    match p.senses.findIdx? (· == .range) with
    | some row => .error (.rangeMissing row)
    | none => .ok ()

def badBounds (bounds : α × α) : Bool :=
  Scalar.isNaN bounds.1 || Scalar.isNaN bounds.2 || Scalar.lt bounds.2 bounds.1

def checkBounds (p : Problem α) : Except (ProblemError α) Unit :=
  match (p.lower.zip p.upper).zipIdx.find? (badBounds ·.1) with
  | some ((lower, upper), column) => .error (.bounds column lower upper)
  | none => .ok ()

def checkKinds (p : Problem α) : Except (ProblemError α) Unit :=
  if p.kind.allowsIntegers then .ok ()
  else
    match p.kinds.zipIdx.find? (·.1.isInteger) with
    | some (kind, column) => .error (.integerColumn column kind p.kind)
    | none => .ok ()

/-- A problem must be valid before it is bound to a solver. The first thing wrong is the error. -/
def validate (p : Problem α) : Except (ProblemError α) Unit := do
  checkLength .matrixColumns p.columns p.matrix.columns
  checkLength .objective p.columns p.objective.length
  checkLength .lowerBounds p.columns p.lower.length
  checkLength .upperBounds p.columns p.upper.length
  checkLength .columnKinds p.columns p.kinds.length
  checkLength .rhs p.numRows p.rhs.length
  checkLength .senses p.numRows p.senses.length
  p.checkRanges
  p.checkBounds
  p.checkKinds

end LinProg.Problem
