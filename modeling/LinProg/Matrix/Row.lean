import LinProg.Call
import LinProg.Scalar.Basic

/-!
Sparse rows: the columns of a row that hold something other than zero, with what they hold. All
operations keep the columns strictly increasing and the values nonzero.
-/

namespace LinProg

abbrev SparseRow (α : Type) := List (Nat × α)

namespace SparseRow

variable {α : Type} [Scalar α]

open Scalar

def Canonical (row : SparseRow α) : Prop :=
  row.Pairwise (·.1 < ·.1) ∧ ∀ t ∈ row, isZero t.2 = false

def get (row : SparseRow α) (column : Nat) : α :=
  (row.lookup column).getD 0

/-- Stores a value; a zero takes the column out of the row. -/
def set (row : SparseRow α) (column : Nat) (value : α) : SparseRow α :=
  match row with
  | [] => if isZero value then [] else [(column, value)]
  | (c, v) :: rest =>
    if c < column then (c, v) :: set rest column value
    else if c = column then if isZero value then rest else (column, value) :: rest
    else if isZero value then (c, v) :: rest else (column, value) :: (c, v) :: rest

def gather (row : SparseRow α) (term : Nat × α) : SparseRow α :=
  match row with
  | [] => [(term.1, 0 + term.2)]
  | (c, v) :: rest =>
    if c < term.1 then (c, v) :: gather rest term
    else if c = term.1 then (c, v + term.2) :: rest
    else (term.1, 0 + term.2) :: (c, v) :: rest

/-- The row of a list of terms: the terms of a column are added up in their order, and columns
whose sum is zero are left out. -/
def ofTerms (terms : List (Nat × α)) : SparseRow α :=
  (terms.foldl gather []).filter (nonzero ·.2)

def ofDense (values : List α) : SparseRow α :=
  (values.zipIdx.map fun (v, c) => (c, v)).filter (nonzero ·.2)

def toDense? (columns : Nat) (row : SparseRow α) : Option (List α) :=
  row.foldlM (fun dense t => place? dense t.1 t.2) (List.replicate columns 0)

def activity? (row : SparseRow α) (x : List α) : Option α :=
  (row.mapM fun t => x[t.1]?.map (t.2 * ·)).map sum

def same (row row' : SparseRow α) : Bool :=
  row.isEqv row' fun t t' => t.1 == t'.1 && Scalar.same t.2 t'.2

end SparseRow

end LinProg
