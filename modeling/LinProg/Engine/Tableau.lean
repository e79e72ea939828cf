import LinProg.Engine.Program

/-!
Simplex tableaus. Every variable, of a column or of a row, has a range and a value; the basic
variables are weighted sums of the others. A pivot exchanges a basic variable with another one.
Variables enter and leave by the least-index rule, so that no basis comes back.
-/

namespace LinProg.Engine

structure Tableau where
  basis : Array Nat
  others : Array Nat
  /-- For each basic variable its weights on the other variables. -/
  weights : Array (Array Rat)
  /-- The objective's weights on the other variables. -/
  costs : Array Rat
  ranges : Array Range
  values : Array Rat

namespace Tableau

def range (t : Tableau) (v : Nat) : Range :=
  t.ranges.getD v .whole

def value (t : Tableau) (v : Nat) : Rat :=
  t.values.getD v 0

def weight (t : Tableau) (row place : Nat) : Rat :=
  (t.weights.getD row #[]).getD place 0

def basic (t : Tableau) (row : Nat) : Nat :=
  t.basis.getD row 0

def other (t : Tableau) (place : Nat) : Nat :=
  t.others.getD place 0

/-- Rows are basic at first, and columns sit at an end of their range if it has one. -/
def ofProgram (p : Program) : Tableau :=
  let n := p.columns.length
  let start := p.columns.map fun c => (c.range.low.orElse fun _ => c.range.high).getD 0
  let point := start.toArray
  let dense (r : ProgramRow) : Array Rat :=
    r.terms.foldl (fun a (c, v) => a.modify c (· + v)) (Array.replicate n 0)
  let activity (r : ProgramRow) : Rat :=
    (r.terms.map fun (c, v) => v * point.getD c 0).foldl (· + ·) 0
  { basis := ((List.range p.rows.length).map (n + ·)).toArray
    others := (List.range n).toArray
    weights := (p.rows.map dense).toArray
    costs := (p.columns.map (·.cost)).toArray
    ranges := (p.columns.map (·.range) ++ p.rows.map (·.range)).toArray
    values := (start ++ p.rows.map activity).toArray }

def move (t : Tableau) (place : Nat) (step : Rat) : Tableau :=
  let values := t.values.modify (t.other place) (· + step)
  { t with
    values := (List.range t.basis.size).foldl
      (fun vs row => vs.modify (t.basic row) (· + t.weight row place * step)) values }

/-- Solves a row for the variable at `place` of it and puts that into another row. -/
def substitute (solved : Array Rat) (place : Nat) (row : Array Rat) : Array Rat :=
  let factor := row.getD place 0
  if factor = 0 then row
  else row.mapIdx fun k w =>
    if k = place then factor * solved.getD k 0 else w + factor * solved.getD k 0

def pivot (t : Tableau) (row place : Nat) : Tableau :=
  let w := t.weight row place
  let solved := (t.weights.getD row #[]).mapIdx fun k x => if k = place then 1 / w else -x / w
  { t with
    basis := t.basis.setIfInBounds row (t.other place)
    others := t.others.setIfInBounds place (t.basic row)
    weights := t.weights.mapIdx fun i r => if i = row then solved else substitute solved place r
    costs := substitute solved place t.costs }

def leastBy (key : Nat → Nat) (xs : List Nat) : Option Nat :=
  xs.foldl (fun best x =>
    match best with
    | none => some x
    | some b => if key x < key b then some x else some b) none

def canRise (t : Tableau) (v : Nat) : Bool :=
  (t.range v).high.all (t.value v < ·)

def canFall (t : Tableau) (v : Nat) : Bool :=
  (t.range v).low.all (· < t.value v)

def canMove (t : Tableau) (place : Nat) (w : Rat) : Bool :=
  if 0 < w then t.canRise (t.other place) else if w < 0 then t.canFall (t.other place) else false

/-- Brings the basic variables into their ranges; false if that is not possible. -/
def repair (t : Tableau) : Nat → Option (Bool × Tableau)
  | 0 => none
  | fuel + 1 =>
    let outside row :=
      let v := t.basic row
      (t.range v).isBelow (t.value v) || (t.range v).isAbove (t.value v)
    match leastBy t.basic ((List.range t.basis.size).filter outside) with
    | none => some (true, t)
    | some row =>
      let v := t.basic row
      let r := t.range v
      let target := (if r.isBelow (t.value v) then r.low else r.high).getD 0
      let gap := target - t.value v
      let useful place := t.canMove place (t.weight row place * gap)
      match leastBy t.other ((List.range t.others.size).filter useful) with
      | none => some (false, t)
      | some place => ((t.move place (gap / t.weight row place)).pivot row place).repair fuel

def room (t : Tableau) (v : Nat) (rate : Rat) : Option Rat :=
  if 0 < rate then (t.range v).high.map fun h => (h - t.value v) / rate
  else if rate < 0 then (t.range v).low.map fun l => (l - t.value v) / rate
  else none

structure Stop where
  distance : Rat
  var : Nat
  row : Option Nat

def Stop.before (a b : Stop) : Bool :=
  a.distance < b.distance || (a.distance = b.distance && a.var < b.var)

def Stop.first (stops : List Stop) : Option Stop :=
  stops.foldl (fun best stop =>
    match best with
    | none => some stop
    | some b => if stop.before b then some stop else some b) none

def stops (t : Tableau) (place : Nat) (sign : Rat) : List Stop :=
  let own := (t.room (t.other place) sign).map fun d => ⟨d, t.other place, none⟩
  own.toList ++ (List.range t.basis.size).filterMap fun row =>
    (t.room (t.basic row) (sign * t.weight row place)).map fun d => ⟨d, t.basic row, some row⟩

/-- Improves the objective until no move does; false if a move has no end. -/
def improve (t : Tableau) : Nat → Option (Bool × Tableau)
  | 0 => none
  | fuel + 1 =>
    let useful place := t.canMove place (t.costs.getD place 0)
    match leastBy t.other ((List.range t.others.size).filter useful) with
    | none => some (true, t)
    | some place =>
      let sign : Rat := if 0 < t.costs.getD place 0 then 1 else -1
      match Stop.first (t.stops place sign) with
      | none => some (false, t)
      | some stop =>
        let t := t.move place (sign * stop.distance)
        match stop.row with
        | none => t.improve fuel
        | some row => (t.pivot row place).improve fuel

end Tableau

/-- More than there are bases with their variables at one end or the other. -/
def Program.work (p : Program) : Nat :=
  Nat.pow 3 (p.columns.length + p.rows.length + 1)

def Program.relaxed (p : Program) : Verdict :=
  if p.columns.any (·.range.isEmpty) || p.rows.any (·.range.isEmpty) then .infeasible
  else
    match (Tableau.ofProgram p).repair p.work with
    | none => .undecided
    | some (false, _) => .infeasible
    | some (true, t) =>
      match t.improve p.work with
      | none => .undecided
      | some (false, _) => .unbounded
      | some (true, t) => .optimal ((List.range p.columns.length).map t.value)

end LinProg.Engine
