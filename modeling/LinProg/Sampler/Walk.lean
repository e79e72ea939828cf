import LinProg.Sampler.Basic

/-!
Walks of a `PolytopeSampler`. Each step draws a direction, finds where the line in that direction
leaves the polytope, and goes a random part of the way there.
-/

namespace LinProg.Sampler

variable {α : Type} [Scalar α] {B : Backend α} {G : Type}

open Scalar

def normals (R : Randomness α G) : Nat → G → List α × G
  | 0, g => ([], g)
  | n + 1, g =>
    let (x, g) := R.normal g
    let (xs, g) := normals R n g
    (x :: xs, g)

/-- Draws again, so often at most, while all components are zero. -/
def nonzeroNormals (R : Randomness α G) (n : Nat) : Nat → G → List α × G
  | 0, g => normals R n g
  | tries + 1, g =>
    let drawn := normals R n g
    if drawn.1.any nonzero then drawn else nonzeroNormals R n tries drawn.2

def tries : Nat := Nat.pow 2 20

def normalize [Root α] (normalization : Normalization) (d : List α) : List α :=
  let squared := sum (d.map fun x => x * x)
  let scale := match normalization with
    | .length => Root.root squared
    | .squaredLength => squared
  d.map (· / scale)

def link? (d : List α) : List Nat → Option (List α)
  | [] => some d
  | first :: rest => do
    let value ← d[first]?
    rest.foldlM (fun d column => place? d column value) d

/-- A random direction, with the linked groups applied after normalization. -/
def direction [Root α] (R : Randomness α G) : SamplerCall B G (List α) := do
  let s ← Call.state
  let (d, generator) := nonzeroNormals R s.dimension tries s.generator
  Call.modify ({ · with generator })
  Call.ofOption (s.linked.foldlM link? (normalize s.config.normalization d))

def toward (u : α) : List α → List α → List α
  | x :: xs, b :: bs => (x + u * (b - x)) :: toward u xs bs
  | xs, _ => xs

def uniform (R : Randomness α G) : SamplerCall B G α := do
  let (u, generator) := R.uniform (← Call.state).generator
  Call.modify ({ · with generator })
  return u

def step [Root α] (R : Randomness α G) (current : List α) : SamplerCall B G (List α) := do
  let d ← direction R
  let boundary ← lineIntersection current d
  let next := toward (← uniform R) current boundary
  Call.emit (.moved next)
  return next

def stepsFrom [Root α] (R : Randomness α G) : Nat → List α → SamplerCall B G (List α)
  | 0, current => return current
  | n + 1, current => do
    let next ← step R current
    stepsFrom R n next

def walkFrom [Root α] (R : Randomness α G) (start : List α) (steps : Nat) :
    SamplerCall B G (List α) := do
  checkLength .startPoint (← Call.state).dimension start.length
  stepsFrom R steps start

def walk [Root α] (R : Randomness α G) : SamplerCall B G (List α) := do
  let s ← Call.state
  walkFrom R s.start s.config.steps

def walks [Root α] (R : Randomness α G) : Nat → SamplerCall B G (List (List α))
  | 0 => return []
  | n + 1 => do
    let point ← walk R
    return point :: (← walks R n)

/-- Walks that all begin at the start. -/
def sample [Root α] (R : Randomness α G) (n : Nat) : SamplerCall B G (List (List α)) := do
  let points ← walks R n
  let s ← Call.state
  Call.emit (.sampled n s.dimension s.config.steps)
  return points

end LinProg.Sampler
