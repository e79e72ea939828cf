import LinProg.Engine.Tableau

/-!
Branch and bound: an integer column with a broken value is split into the part below and the part
above, until the best solution is found or the nodes allowed are used up.
-/

namespace LinProg.Engine

namespace Program

def broken? (p : Program) (values : List Rat) : Option (Nat × Range × Rat) :=
  (p.columns.zip values).zipIdx.findSome? fun ((c, v), i) =>
    if c.integer ∧ v.den ≠ 1 then some (i, c.range, v) else none

/-- Solves a program as if no column were an integer. Rows that miss a solution by no more than
`tolerance` are widened by as much as they miss. -/
def relaxedWithin (p : Program) (tolerance : Rat) : Verdict :=
  match p.relaxed with
  | .infeasible =>
    match p.widening.relaxed with
    | .optimal values =>
      let width := values.getLastD 0
      if width ≤ tolerance then (p.widen width).relaxed else .infeasible
    | _ => .infeasible
  | verdict => verdict

/-- The best solution of the open parts and the best one so far. -/
def search (tolerance : Rat) (best : Option (Rat × List Rat)) : List Program → Nat → Verdict
  | [], _ =>
    match best with
    | some (_, values) => .optimal values
    | none => .infeasible
  | _ :: _, 0 => .undecided
  | p :: rest, nodes + 1 =>
    match p.relaxedWithin tolerance with
    | .undecided => .undecided
    | .unbounded => .unbounded
    | .infeasible => search tolerance best rest nodes
    | .optimal values =>
      let objective := p.objectiveAt values
      if best.any fun b => objective ≤ b.1 then search tolerance best rest nodes
      else
        match p.broken? values with
        | none => search tolerance (some (objective, values)) rest nodes
        | some (column, range, v) =>
          let below := p.withRange column { range with high := some v.floor }
          let above := p.withRange column { range with low := some (v.floor + 1) }
          search tolerance best (below :: above :: rest) nodes

def nodes : Nat := Nat.pow 10 5

def solve (p : Program) (tolerance : Rat) : Verdict :=
  search tolerance none [p] nodes

end Program

end LinProg.Engine
