import LinProg.Backend.Embedded
import LinProg.Engine.Branch
import LinProg.Engine.Limits

/-!
The exact engines, which stand for microlp and HiGHS. Numbers are read as exact rationals, the
program is solved without rounding, and the values found are rounded once.
-/

namespace LinProg.Engine

variable {α : Type} [Scalar α]

/-- How far rows may miss a solution and still count as met. -/
def tolerance : Rat := mkRat 1 (Nat.pow 10 8)

def rational? (x : α) : Option Rat :=
  (Scalar.value x).toRat?

def exactTerms? (terms : List (Nat × α)) : Option (List (Nat × Rat)) :=
  terms.mapM fun (c, v) => (rational? v).map (c, ·)

def exactRange? (i : Interval α) : Option Range :=
  Range.ofInterval? (Scalar.value i.1) (Scalar.value i.2)

def exactCost? (direction : Direction) (cost : α) : Option Rat :=
  (rational? cost).map fun c =>
    match direction with
    | .maximise => c
    | .minimise => -c

inductive Defect where
  | weight
  | range

def orDefect {β : Type} (d : Defect) (x : Option β) : Except Defect β :=
  match x with
  | some b => .ok b
  | none => .error d

namespace Embedded

open LinProg.Embedded

def column (direction : Direction) (v : Variable α) : Except Defect ProgramColumn := do
  let cost ← orDefect .weight (exactCost? direction v.cost)
  match v.domain with
  | .real lower upper => return ⟨cost, ← orDefect .range (exactRange? (lower, upper)), false⟩
  | .binary => return ⟨cost, ⟨some 0, some 1⟩, true⟩
  | .integer lower upper => return ⟨cost, ⟨some lower, some upper⟩, true⟩

def row (i : Inequality α) : Except Defect ProgramRow := do
  let terms ← orDefect .weight (exactTerms? i.terms)
  let interval : Interval α := match i.comparison with
    | .equal => (i.rhs, i.rhs)
    | .atLeast => (i.rhs, Scalar.posInf)
    | .atMost => (Scalar.negInf, i.rhs)
  return ⟨terms, ← orDefect .range (exactRange? interval)⟩

def program (input : Input α) : Except Defect Program := do
  return ⟨← input.columns.mapM (column input.direction), ← input.inequalities.mapM row⟩

def solve (input : Input α) : Answer α :=
  match program input with
  | .error .weight => .failed
  | .error .range => .infeasible
  | .ok p =>
    match p.solve tolerance with
    | .optimal values => .solved (values.map Scalar.ofRat)
    | .infeasible => .infeasible
    | .unbounded => .unbounded
    | .undecided => .failed

end Embedded

namespace Ranged

open LinProg.Ranged

def openEnds (i : Interval α) : Interval α :=
  (if Scalar.le i.1 (-infinite) then Scalar.negInf else i.1,
    if Scalar.le infinite i.2 then Scalar.posInf else i.2)

def column (direction : Direction) (v : Variable α) : Except Defect ProgramColumn := do
  return ⟨← orDefect .weight (exactCost? direction v.cost),
    ← orDefect .range (exactRange? (openEnds v.bounds)), v.integer⟩

def row (r : Row α) : Except Defect ProgramRow := do
  return ⟨← orDefect .weight (exactTerms? r.terms),
    ← orDefect .range (exactRange? (openEnds r.interval))⟩

def program (input : Input α) : Except Defect Program := do
  return ⟨← input.columns.mapM (column input.direction), ← input.rows.mapM row⟩

/-- With an integer column it is not found out whether an open end is reached. -/
def unboundedCode (input : Input α) : Code :=
  if input.columns.any (·.integer) then .unboundedOrInfeasible else .unbounded

def solve (input : Input α) : Answer α :=
  if input.columns.isEmpty && input.rows.isEmpty then ⟨.modelEmpty, []⟩
  else
    match program input with
    | .error .weight => ⟨.modelError, []⟩
    | .error .range => ⟨.infeasible, []⟩
    | .ok p =>
      match p.solve tolerance with
      | .optimal values => ⟨.optimal, values.map Scalar.ofRat⟩
      | .infeasible => ⟨.infeasible, []⟩
      | .unbounded => ⟨unboundedCode input, []⟩
      | .undecided => ⟨.unknown, []⟩

end Ranged

end LinProg.Engine

namespace LinProg

def exactEmbedded : Backend Float :=
  embedded Engine.Embedded.solve

def Ranged.load (options : Options) (m : Model Float) : Except Fault (Ranged.Input Float) :=
  Ranged.accepted Engine.Ranged.takes options m

def exactRanged (options : Options) : Backend Float :=
  ranged Engine.Ranged.takes Engine.Ranged.solve options

end LinProg
