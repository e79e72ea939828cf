import LinProg.Binding.Rows

/-!
Solves and probes of a `SolverAdapter`. A probe takes back what it changed whether or not the solve
fails.
-/

namespace LinProg.Binding

variable {α : Type} [Scalar α] {B : Backend α}

def solve : BindingCall B (Solution α) :=
  onSession Session.solve

def solveWith (objective : List α) : BindingCall B (Solution α) := do
  checkLength .objective objective.length
  let previous := (← Call.state).session.model.objective
  onSession
    (Call.thenAlways
      (do
        Session.changeObjective objective
        Session.solve)
      (Session.changeObjective previous))

def solveMaybeWith : Option (List α) → BindingCall B (Solution α)
  | some objective => solveWith objective
  | none => solve

def testConstraint (c : Constraint α) (objective : Option (List α)) :
    BindingCall B (Solution α) := do
  addConstraint c .sessionOnly
  let result ← Call.attempt (solveMaybeWith objective)
  removeLast 1
  Call.ofExcept result

def testBound (index : Nat) (sense : Sense) (value : α) (objective : Option (List α)) :
    BindingCall B (Solution α) :=
  testConstraint (.bound index sense value) objective

def testComparison (first : Nat) (sense : Sense) (second : Nat) (objective : Option (List α)) :
    BindingCall B (Solution α) :=
  match Constraint.comparison first sense second with
  | some c => testConstraint c objective
  | none => solveMaybeWith objective

/-- The first coordinate of a point, counted from `column`, that is not within its bounds; nothing
if a coordinate before it has no bounds. -/
def firstOutside? (column : Nat) : List α → List α → List α → Option (Option Nat)
  | [], _, _ => some none
  | x :: xs, l :: ls, u :: us =>
    if Scalar.le l x && Scalar.le x u then firstOutside? (column + 1) xs ls us
    else some (some column)
  | _ :: _, _, _ => none

def setAllBounds (bounds : List (Interval α)) : SessionCall B Unit :=
  bounds.zipIdx.forM fun ((lower, upper), column) => Session.setBounds column lower upper

/-- Whether a point is inside of the bounds and all rows: the columns are fixed to it for one
run. -/
def isFeasible (x : List α) : BindingCall B Bool := do
  checkLength .point x.length
  let b ← Call.state
  match ← Call.ofOption (firstOutside? 0 x b.problem.lower b.problem.upper) with
  | some column =>
    Call.emit (.outsideBounds b.name column)
    return false
  | none =>
    let code ← onSession
      (Call.thenAlways
        (do
          setAllBounds (x.map fun v => (v, v))
          let code ← Session.optimize
          Call.emit (.pointTried b.name (B.codeName code))
          return code)
        (setAllBounds (b.problem.lower.zip b.problem.upper)))
    return B.hasPoint code

end LinProg.Binding
