import LinProg.Problem.Kind
import LinProg.Scalar.Basic

/-!
`VariableDefinition`: the bounds, the kind and the objective coefficient of one column.
-/

namespace LinProg

structure Column (α : Type) where
  lower : α
  upper : α
  kind : ColumnKind
  objective : α

namespace Column

variable {α : Type} [Scalar α]

def free : Column α :=
  ⟨Scalar.negInf, Scalar.posInf, .continuous, 0⟩

def withLower (c : Column α) (lower : α) : Column α :=
  { c with lower }

def withUpper (c : Column α) (upper : α) : Column α :=
  { c with upper }

def clamp (c : Column α) (lower upper : α) : Column α :=
  (c.withLower lower).withUpper upper

def within (c : Column α) (lower upper : Option α) : Column α :=
  c.clamp (lower.getD Scalar.negInf) (upper.getD Scalar.posInf)

def withKind (c : Column α) (kind : ColumnKind) : Column α :=
  { c with kind }

def integer (c : Column α) : Column α :=
  c.withKind .integer

def binary (c : Column α) : Column α :=
  (c.withKind .binary).clamp 0 1

def withObjective (c : Column α) (objective : α) : Column α :=
  { c with objective }

def same (c d : Column α) : Bool :=
  Scalar.same c.lower d.lower && Scalar.same c.upper d.upper && c.kind == d.kind &&
    Scalar.same c.objective d.objective

end Column

end LinProg
