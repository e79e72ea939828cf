import LinProg.Random.Normal
import LinProg.Session.Backend

/-!
`SamplerConfig`, `SamplingError`, and where the randomness of a sampler comes from.
-/

namespace LinProg

/-- What the components of a direction are divided by: its length, or the square of that. -/
inductive Normalization where
  | length
  | squaredLength
  deriving DecidableEq, Inhabited

def Normalization.name : Normalization → String
  | .length => "UnitNorm"
  | .squaredLength => "SquaredNorm"

structure SamplerConfig where
  steps : Nat
  normalization : Normalization
  seed : Option Nat
  verifyStart : Bool
  deriving DecidableEq

instance : Inhabited SamplerConfig := ⟨⟨1000, .length, none, false⟩⟩

structure Randomness (α G : Type) where
  normal : G → α × G
  uniform : G → α × G

def streams : Randomness Float Random.Stream :=
  ⟨Random.Stream.normal, Random.Stream.unit⟩

inductive SamplingError (α : Type) where
  | status (s : Status)
  | infeasibleStart
  | problem (e : ProblemError α)
  | solver (e : SolverError α)
  deriving DecidableEq

def SamplingError.message {α : Type} [Numeral α] : SamplingError α → String
  | .status s => s!"line intersection ended with status {s.name}"
  | .infeasibleStart => "the start point is not feasible"
  | .problem e => e.message
  | .solver e => e.message

end LinProg
