import LinProg.Problem.Basic

/-!
The objective at a point, and how far a point is from the bounds and rows of a `Problem`.
-/

namespace LinProg.Problem

variable {α : Type} [Scalar α]

open Scalar

def objectiveAt (p : Problem α) (x : List α) : α :=
  dot p.objective x

/-- How far a value is outside of an interval; the smaller distance counts for nothing, and so does
a distance that is no number. -/
def distance (value : α) (interval : Interval α) : α :=
  greatest (interval.1 - value) (value - interval.2)

def boundValues (p : Problem α) (x : List α) : List (α × Interval α) :=
  x.zip (p.lower.zip p.upper)

def rowValues? (p : Problem α) (x : List α) : Option (List (α × Interval α)) :=
  p.matrix.rows.zipIdx.mapM fun (row, i) => do
    let activity ← row.activity? x
    return (activity, ← p.rowInterval? i)

/-- A value that is no number is as far out as can be. -/
def worse (worst : α) (v : α × Interval α) : α :=
  if isNaN v.1 then posInf else greatest worst (distance v.1 v.2)

def maxViolation (p : Problem α) (x : List α) : Except (Failure (ProblemError α)) α :=
  if x.length = p.columns then
    match p.rowValues? x with
    | some rows => .ok ((p.boundValues x ++ rows).foldl worse 0)
    | none => .error (.fault .outOfRange)
  else .error (.error (.length .point p.columns x.length))

def isSatisfied (p : Problem α) (x : List α) (tolerance : α) : Except Fault Bool :=
  match p.maxViolation x with
  | .ok violation => .ok (le violation tolerance)
  | .error (.error _) => .ok false
  | .error (.fault f) => .error f

end LinProg.Problem
