import LinProg.Scalar.Basic

/-!
`Sense`, and the interval that a row with a sense must lie in.
-/

namespace LinProg

inductive Sense where
  | lessEq
  | greaterEq
  | equal
  | range
  deriving DecidableEq, Inhabited

abbrev Interval (α : Type) := α × α

namespace Sense

def code : Sense → Char
  | .lessEq => 'L'
  | .greaterEq => 'G'
  | .equal => 'E'
  | .range => 'R'

def ofCode? : Char → Option Sense
  | 'L' => some .lessEq
  | 'G' => some .greaterEq
  | 'E' => some .equal
  | 'R' => some .range
  | _ => none

@[simp] theorem ofCode?_code (s : Sense) : ofCode? s.code = some s := by
  cases s <;> rfl

def symbol : Sense → String
  | .lessEq => "<="
  | .greaterEq => ">="
  | .equal => "="
  | .range => "in"

def name : Sense → String
  | .lessEq => "LessEq"
  | .greaterEq => "GreaterEq"
  | .equal => "Equal"
  | .range => "Range"

open Scalar in
/-- A range extends upwards from the right-hand side, or downwards when it is not above 0. -/
def interval {α : Type} [Scalar α] (s : Sense) (rhs range : α) : Interval α :=
  match s with
  | .lessEq => (negInf, rhs)
  | .greaterEq => (rhs, posInf)
  | .equal => (rhs, rhs)
  | .range => if le 0 range then (rhs, rhs + range) else (rhs + range, rhs)

end Sense

end LinProg
