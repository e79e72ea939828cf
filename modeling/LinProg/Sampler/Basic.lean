import LinProg.Binding.Probe
import LinProg.Sampler.Augmented
import LinProg.Sampler.Source

/-!
`PolytopeSampler`: hit-and-run walks in a polytope. The distance along a line is maximised in the
augmented problem of the polytope, whose last rows are set anew for each line.
-/

namespace LinProg

variable {α : Type} [Scalar α]

structure Sampler (B : Backend α) (G : Type) where
  binding : Binding B
  dimension : Nat
  /-- How many rows there are before those of the line. -/
  baseRows : Nat
  start : List α
  linked : List (List Nat)
  config : SamplerConfig
  generator : G

abbrev SamplerCall (B : Backend α) (G β : Type) :=
  Call (Event α) (SamplingError α) (Sampler B G) β

namespace Sampler

variable {B : Backend α} {G β σ : Type}

def checkLength (part : Part) (expected found : Nat) : Call (Event α) (SamplingError α) σ Unit :=
  Call.require (expected == found) (.problem (.length part expected found))

/-- Whether the start is feasible, found out in a session of its own; answers what the backend
remembers after that. -/
def verifyStart (B : Backend α) (memory : B.Memory) (p : Problem α) (start : List α) :
    Call (Event α) (SamplingError α) σ B.Memory := do
  let check ← (Binding.bind B memory p).mapError .solver
  let (feasible, check) ← (Call.within check (Binding.isFeasible start)).mapError .solver
  let (_, check) ← (Call.within check Binding.close).mapError .solver
  Call.require feasible .infeasibleStart
  return check.session.memory

def new (B : Backend α) (memory : B.Memory) (generator : G) (p : Problem α) (start : List α)
    (config : SamplerConfig) : Call (Event α) (SamplingError α) σ (Sampler B G) := do
  Call.ofExcept (p.validate.mapError .problem)
  checkLength .startPoint p.columns start.length
  let memory ← (if config.verifyStart then verifyStart B memory p start else pure memory)
  let augmented ← Call.ofResult (p.augmented.mapError (Failure.map .problem))
  let binding ← (Binding.bind B memory augmented).mapError .solver
  return {
    binding := binding.rename "sampler"
    dimension := p.columns
    baseRows := p.numRows
    start, config, generator
    linked := [] }

/-- Each group of columns is to move by the component of its first column. -/
def linkGroups (groups : List (List Nat)) : SamplerCall B G Unit := do
  let dimension := (← Call.state).dimension
  match groups.flatten.find? (dimension ≤ ·) with
  | some index => Call.fail (.problem (.missingColumn index dimension))
  | none => Call.modify ({ · with linked := groups })

def setStart (start : List α) : SamplerCall B G Unit := do
  checkLength .startPoint (← Call.state).dimension start.length
  Call.modify ({ · with start })

def onBinding (c : BindingCall B β) : SamplerCall B G β :=
  c.on (·.binding) (fun s binding => { s with binding }) .solver

def lineRows (s : Sampler B G) : List Nat :=
  (List.range s.dimension).map (s.baseRows + ·)

/-- The last point of the polytope on the line from `origin` along `direction`. -/
def lineIntersection (origin direction : List α) : SamplerCall B G (List α) := do
  let s ← Call.state
  checkLength .lineOrigin s.dimension origin.length
  checkLength .lineDirection s.dimension direction.length
  Call.emit (.lineSet origin direction)
  onBinding (Binding.changeCoefficients
    (s.lineRows.zipWith (fun row d => (row, s.dimension, -d)) direction))
  onBinding (Binding.changeRhs (s.lineRows.zip origin))
  let solution ← onBinding Binding.solve
  if solution.status = .optimal then return solution.values.take s.dimension
  Call.emit (.lineLost origin direction solution.status)
  Call.fail (.status solution.status)

def close : SamplerCall B G Unit :=
  onBinding Binding.close

end Sampler

end LinProg
