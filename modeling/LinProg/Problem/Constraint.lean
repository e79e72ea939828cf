import LinProg.Problem.Error
import LinProg.Problem.Sense

/-!
`Constraint`: a weighted sum of columns, a sense and a right-hand side.
-/

namespace LinProg

abbrev Term (α : Type) := Nat × α

structure Constraint (α : Type) where
  terms : List (Term α)
  sense : Sense
  rhs : α
  range : Option α

namespace Constraint

variable {α : Type}

def ofLists (indices : List Nat) (coeffs : List α) (sense : Sense) (rhs : α) :
    Except (ProblemError α) (Constraint α) :=
  if indices.length = coeffs.length then .ok ⟨indices.zip coeffs, sense, rhs, none⟩
  else .error (.length .constraintCoefficients indices.length coeffs.length)

def indices (c : Constraint α) : List Nat :=
  c.terms.map (·.1)

def coeffs (c : Constraint α) : List α :=
  c.terms.map (·.2)

@[simp] theorem length_coeffs (c : Constraint α) : c.coeffs.length = c.indices.length := by
  simp [coeffs, indices]

def withRange (c : Constraint α) (range : α) : Constraint α :=
  { c with range := some range }

variable [Scalar α]

def bound (index : Nat) (sense : Sense) (value : α) : Constraint α :=
  ⟨[(index, 1)], sense, value, none⟩

/-- Column `first` against column `second`, unless they are the same. -/
def comparison (first : Nat) (sense : Sense) (second : Nat) : Option (Constraint α) :=
  if first = second then none else some ⟨[(first, 1), (second, -1)], sense, 0, none⟩

def interval (c : Constraint α) : Interval α :=
  c.sense.interval c.rhs (c.range.getD 0)

def checkColumns (c : Constraint α) (columns : Nat) : Except (ProblemError α) Unit :=
  match c.indices.find? (columns ≤ ·) with
  | some index => .error (.missingColumn index columns)
  | none => .ok ()

def same (c d : Constraint α) : Bool :=
  c.indices == d.indices && c.coeffs.isEqv d.coeffs Scalar.same && c.sense == d.sense &&
    Scalar.same c.rhs d.rhs &&
    match c.range, d.range with
    | none, none => true
    | some r, some r' => Scalar.same r r'
    | _, _ => false

end Constraint

end LinProg
