import LinProg.Model

/-!
An interval as comparisons with single values, for the engines of `MicroLpSession` and
`LpSolverSession`.
-/

namespace LinProg

inductive Comparison where
  | equal
  | atLeast
  | atMost
  deriving DecidableEq, Inhabited

namespace Comparison

def symbol : Comparison → String
  | .equal => "="
  | .atLeast => ">="
  | .atMost => "<="

variable {α : Type} [Scalar α]

open Scalar

def ofInterval (i : Interval α) : List (Comparison × α) :=
  if same i.1 i.2 then [(.equal, i.1)]
  else
    (if lt negInf i.1 then [(.atLeast, i.1)] else []) ++
      (if lt i.2 posInf then [(.atMost, i.2)] else [])

end Comparison

structure Inequality (α : Type) where
  terms : List (Nat × α)
  comparison : Comparison
  rhs : α
  deriving DecidableEq

def ModelRow.inequalities {α : Type} [Scalar α] (r : ModelRow α) : List (Inequality α) :=
  (Comparison.ofInterval r.interval).map fun (c, rhs) => ⟨r.terms, c, rhs⟩

end LinProg
