import LinProg.Scalar.Extended

/-!
Programs over exact rationals, as the engine solves them: maximise a weighted sum of columns that
lie, like the weighted sums of the rows, between bounds, some of them in the integers.
-/

namespace LinProg.Engine

structure Range where
  low : Option Rat
  high : Option Rat
  deriving DecidableEq, Inhabited

namespace Range

def whole : Range :=
  ⟨none, none⟩

/-- The range of an interval, or nothing if no rational lies in an interval with such ends. -/
def ofInterval? (low high : Extended) : Option Range := do
  let low ← match low with
    | .negInf => some none
    | .fin q => some (some q)
    | .nan | .posInf => none
  let high ← match high with
    | .posInf => some none
    | .fin q => some (some q)
    | .nan | .negInf => none
  return ⟨low, high⟩

def isEmpty (r : Range) : Bool :=
  match r.low, r.high with
  | some l, some h => h < l
  | _, _ => false

def isBelow (r : Range) (q : Rat) : Bool :=
  r.low.any (q < ·)

def isAbove (r : Range) (q : Rat) : Bool :=
  r.high.any (· < q)

def widen (r : Range) (width : Rat) : Range :=
  ⟨r.low.map (· - width), r.high.map (· + width)⟩

end Range

structure ProgramColumn where
  cost : Rat
  range : Range
  integer : Bool
  deriving Inhabited

structure ProgramRow where
  terms : List (Nat × Rat)
  range : Range
  deriving Inhabited

/-- The sum of the costs times the values is to be as large as possible. -/
structure Program where
  columns : List ProgramColumn
  rows : List ProgramRow

/-- How solving a program ended; undecided when the work allowed was used up. -/
inductive Verdict where
  | optimal (values : List Rat)
  | infeasible
  | unbounded
  | undecided
  deriving Inhabited

namespace Program

def objectiveAt (p : Program) (values : List Rat) : Rat :=
  (p.columns.zipWith (fun c v => c.cost * v) values).foldl (· + ·) 0

def withRange (p : Program) (column : Nat) (range : Range) : Program :=
  { p with columns := p.columns.modify column ({ · with range }) }

def widen (p : Program) (width : Rat) : Program :=
  { p with rows := p.rows.map fun r => { r with range := r.range.widen width } }

/-- The program of finding how little the rows must be widened for a solution to exist: the last
column is that width, with its sign turned to make it a maximum. -/
def widening (p : Program) : Program where
  columns := p.columns.map ({ · with cost := 0 }) ++ [⟨-1, ⟨some 0, none⟩, false⟩]
  rows := p.rows.flatMap fun r =>
    [⟨r.terms ++ [(p.columns.length, 1)], ⟨r.range.low, none⟩⟩,
      ⟨r.terms ++ [(p.columns.length, -1)], ⟨none, r.range.high⟩⟩]

end Program

end LinProg.Engine
