import LinProg.Problem.Basic
import LinProg.Text.Numeral

/-!
The LP text of a `Problem`. It is laid out from an `Export`, which holds what is written and leaves
out what is not.
-/

namespace LinProg

inductive ExportRow (α : Type) where
  | compared (terms : List (Nat × α)) (sense : Sense) (rhs : α)
  | between (low : α) (terms : List (Nat × α)) (high : α)

inductive ExportBounds (α : Type) where
  | free
  | atLeast (low : α)
  | atMost (high : α)
  | between (low high : α)

structure Export (α : Type) where
  kind : ProblemKind
  maximised : Bool
  objective : List (Nat × α)
  rows : List (ExportRow α)
  bounds : List (ExportBounds α)
  integers : List Nat
  binaries : List Nat

variable {α : Type} [Scalar α]

def ExportBounds.ofInterval (bounds : Interval α) : ExportBounds α :=
  match Scalar.isFinite bounds.1, Scalar.isFinite bounds.2 with
  | false, false => .free
  | true, false => .atLeast bounds.1
  | false, true => .atMost bounds.2
  | true, true => .between bounds.1 bounds.2

namespace Problem

def written (terms : List (Nat × α)) : List (Nat × α) :=
  terms.filter (Scalar.nonzero ·.2)

def exportRow? (p : Problem α) (row : SparseRow α) (i : Nat) : Option (ExportRow α) := do
  match ← p.senses[i]? with
  | .range =>
    let (low, high) ← p.rowInterval? i
    return .between low (written row) high
  | sense => return .compared (written row) sense (← p.rhs[i]?)

def columnsOf? (p : Problem α) (kind : ColumnKind) : Option (List Nat) :=
  (List.range p.columns).filterM fun c => p.kinds[c]?.map (· == kind)

def export? (p : Problem α) : Option (Export α) := do
  return {
    kind := p.kind
    maximised := p.isMaximised
    objective := written (p.objective.zipIdx.map fun (v, c) => (c, v))
    rows := ← p.matrix.rows.zipIdx.mapM fun (row, i) => p.exportRow? row i
    bounds := (p.lower.zip p.upper).map .ofInterval
    integers := ← p.columnsOf? .integer
    binaries := ← p.columnsOf? .binary }

end Problem

variable [Numeral α]

open Text (sumText columnName)

def ExportRow.line : ExportRow α × Nat → String
  | (.compared terms sense rhs, i) =>
    s!" c{i}: {sumText terms} {sense.symbol} {Numeral.plain rhs}\n"
  | (.between low terms high, i) =>
    s!" c{i}: {Numeral.plain low} <= {sumText terms} <= {Numeral.plain high}\n"

def ExportBounds.line : ExportBounds α × Nat → String
  | (.free, c) => s!" {columnName c} free\n"
  | (.atLeast low, c) => s!" {columnName c} >= {Numeral.plain low}\n"
  | (.atMost high, c) => s!" -inf <= {columnName c} <= {Numeral.plain high}\n"
  | (.between low high, c) =>
    s!" {Numeral.plain low} <= {columnName c} <= {Numeral.plain high}\n"

namespace Export

def titled (title : String) (columns : List Nat) : String :=
  match columns with
  | [] => ""
  | columns => title ++ "\n " ++ " ".intercalate (columns.map columnName) ++ "\n"

def render (e : Export α) : String :=
  s!"\\ {e.kind.name} problem\n" ++
    (if e.maximised then "Maximize\n" else "Minimize\n") ++
    s!" obj: {sumText e.objective}\n" ++
    "Subject To\n" ++
    .join (e.rows.zipIdx.map ExportRow.line) ++
    "Bounds\n" ++
    .join (e.bounds.zipIdx.map ExportBounds.line) ++
    titled "General" e.integers ++
    titled "Binary" e.binaries ++
    "End\n"

end Export

def Problem.text? (p : Problem α) : Option String :=
  p.export?.map Export.render

end LinProg
