/-!
`ProblemKind`, `VariableKind`, `ObjectiveDirection` and `SolutionStatus`.
-/

namespace LinProg

inductive ProblemKind where
  | linear
  | quadratic
  | mixedLinear
  | mixedQuadratic
  deriving DecidableEq, Inhabited

namespace ProblemKind

def allowsIntegers : ProblemKind → Bool
  | .mixedLinear | .mixedQuadratic => true
  | .linear | .quadratic => false

def isQuadratic : ProblemKind → Bool
  | .quadratic | .mixedQuadratic => true
  | .linear | .mixedLinear => false

def mixed : ProblemKind → ProblemKind
  | .linear | .mixedLinear => .mixedLinear
  | .quadratic | .mixedQuadratic => .mixedQuadratic

def name : ProblemKind → String
  | .linear => "LP"
  | .quadratic => "QP"
  | .mixedLinear => "MILP"
  | .mixedQuadratic => "MIQP"

end ProblemKind

inductive ColumnKind where
  | continuous
  | binary
  | integer
  deriving DecidableEq, Inhabited

namespace ColumnKind

def isInteger (k : ColumnKind) : Bool :=
  k != .continuous

def code : ColumnKind → Char
  | .continuous => 'C'
  | .binary => 'B'
  | .integer => 'I'

def ofCode? : Char → Option ColumnKind
  | 'C' => some .continuous
  | 'B' => some .binary
  | 'I' => some .integer
  | _ => none

@[simp] theorem ofCode?_code (k : ColumnKind) : ofCode? k.code = some k := by
  cases k <;> rfl

def name : ColumnKind → String
  | .continuous => "Continuous"
  | .binary => "Binary"
  | .integer => "Integer"

end ColumnKind

inductive Direction where
  | maximise
  | minimise
  deriving DecidableEq, Inhabited

def Direction.name : Direction → String
  | .maximise => "Maximisation"
  | .minimise => "Minimisation"

inductive Status where
  | optimal
  | infeasible
  | unbounded
  | other
  deriving DecidableEq, Inhabited

def Status.name : Status → String
  | .optimal => "Optimal"
  | .infeasible => "Infeasible"
  | .unbounded => "Unbounded"
  | .other => "Other"

end LinProg
