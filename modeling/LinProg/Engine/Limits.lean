import LinProg.Backend.Ranged

/-!
What the engine behind `exactRanged` takes. It stands for HiGHS, which knows more options than
these; `ranged` itself is for any engine and whatever that takes.
-/

namespace LinProg.Engine.Ranged

open LinProg.Ranged

inductive Spec where
  | words (allowed : List String)
  | flag
  | count (least greatest : Int)
  | number (least greatest : Float)

def known : List (String × Spec) := [
  ("presolve", .words ["off", "choose", "on"]),
  ("solver", .words ["simplex", "choose", "ipm", "ipx", "hipo", "pdlp"]),
  ("parallel", .words ["off", "choose", "on"]),
  ("run_crossover", .words ["off", "choose", "on"]),
  ("ranging", .words ["off", "on"]),
  ("time_limit", .number 0 (1 / 0)),
  ("infinite_cost", .number 1e15 (1 / 0)),
  ("infinite_bound", .number 1e15 (1 / 0)),
  ("primal_feasibility_tolerance", .number 1e-10 (1 / 0)),
  ("dual_feasibility_tolerance", .number 1e-10 (1 / 0)),
  ("mip_feasibility_tolerance", .number 1e-10 (1 / 0)),
  ("mip_rel_gap", .number 0 (1 / 0)),
  ("mip_abs_gap", .number 0 (1 / 0)),
  ("random_seed", .count 0 2147483647),
  ("threads", .count 0 2147483647),
  ("simplex_strategy", .count 0 4),
  ("simplex_iteration_limit", .count 0 2147483647),
  ("mip_max_nodes", .count 0 2147483647),
  ("output_flag", .flag),
  ("log_to_console", .flag)]

def Spec.takes : Spec → OptionValue → Bool
  | .words allowed, .text s => allowed.contains s
  | .flag, .flag _ => true
  | .count least greatest, .count n => least ≤ n && n ≤ greatest
  | .number least greatest, .number x => !(x < least) && !(greatest < x)
  | _, _ => false

def isTaken (entry : String × OptionValue) : Bool :=
  match known.lookup entry.1 with
  | some spec => spec.takes entry.2
  | none => false

variable {α : Type} [Scalar α]

/-- Bounds from here on are infinite to the engine. -/
def infinite : α :=
  Scalar.ofRat (Nat.pow 10 20)

def largestWeight : α :=
  Scalar.ofRat (Nat.pow 10 15)

/-- Whether the engine takes an interval: its ends are numbers, and neither is at the infinity
beyond the other. -/
def takesInterval (i : Interval α) : Bool :=
  Scalar.lt i.1 infinite && Scalar.lt (-infinite) i.2

def takesColumn (v : Variable α) : Bool :=
  !Scalar.isNaN v.cost && takesInterval v.bounds

def takesRow (r : Row α) : Bool :=
  takesInterval r.interval &&
    r.terms.all fun (_, v) => Scalar.le (-largestWeight) v && Scalar.le v largestWeight

def takes (options : Options) (input : Input α) : Bool :=
  input.columns.all takesColumn && input.rows.all takesRow && options.entries.all isTaken

end LinProg.Engine.Ranged
