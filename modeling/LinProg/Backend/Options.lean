import LinProg.Session.Backend

/-!
The options of `Highs`, by name. The last value given to a name counts, whichever way it was given.
-/

namespace LinProg

inductive OptionValue where
  | text (s : String)
  | flag (b : Bool)
  | count (n : Int)
  | number (x : Float)

structure Options where
  verbose : Bool
  entries : List (String × OptionValue)

inductive Presolve where
  | off
  | choose
  | on
  deriving DecidableEq

inductive Algorithm where
  | simplex
  | choose
  | interiorPoint
  deriving DecidableEq

def Presolve.name : Presolve → String
  | .off => "Off"
  | .choose => "Choose"
  | .on => "On"

def Presolve.text : Presolve → String
  | .off => "off"
  | .choose => "choose"
  | .on => "on"

def Algorithm.name : Algorithm → String
  | .simplex => "Simplex"
  | .choose => "Choose"
  | .interiorPoint => "Ipm"

def Algorithm.text : Algorithm → String
  | .simplex => "simplex"
  | .choose => "choose"
  | .interiorPoint => "ipm"

instance : Inhabited Presolve := ⟨.choose⟩

instance : Inhabited Algorithm := ⟨.choose⟩

namespace Options

def empty : Options :=
  ⟨false, []⟩

def get? (o : Options) (key : String) : Option OptionValue :=
  o.entries.lookup key

def set (o : Options) (key : String) (value : OptionValue) : Options :=
  { o with entries := (key, value) :: o.entries.filter (·.1 != key) }

theorem lookup_filter_ne (entries : List (String × OptionValue)) {key key' : String}
    (h : key' ≠ key) : (entries.filter (·.1 != key)).lookup key' = entries.lookup key' := by
  induction entries with
  | nil => rfl
  | cons e es ih =>
    obtain ⟨k, v⟩ := e
    by_cases hk : k = key
    · have : (key' == key) = false := by simp [h]
      simp [hk, ih, List.lookup_cons, this]
    · simp [hk, ih, List.lookup_cons]

theorem get?_set (o : Options) (key key' : String) (value : OptionValue) :
    (o.set key value).get? key' = if key' = key then some value else o.get? key' := by
  by_cases h : key' = key
  · simp [get?, set, h]
  · have : (key' == key) = false := by simp [h]
    simp [get?, set, List.lookup_cons, this, h, lookup_filter_ne]

def withVerbose (o : Options) (verbose : Bool) : Options :=
  { o with verbose }

def withPresolve (o : Options) (p : Presolve) : Options :=
  o.set "presolve" (.text p.text)

def withAlgorithm (o : Options) (a : Algorithm) : Options :=
  o.set "solver" (.text a.text)

def isNegative (x : Float) : Bool :=
  match x.toModel.unpack with
  | .infinity .negative | .zero .negative | .finite .negative .. => true
  | _ => false

/-- A gap has no minus sign, not even that of a zero, and is finite. -/
def withGap {α : Type} (o : Options) (gap : Float) : Except (SolverError α) Options :=
  if isNegative gap || !Scalar.isFinite gap then
    .error (.engine "Highs" s!"invalid relative mip gap {Numeral.plain gap}")
  else .ok (o.set "mip_rel_gap" (.number gap))

/-- Counts are words of 32 bits with a sign, into which the number of threads is wrapped. -/
def withThreads (o : Options) (threads : Nat) : Options :=
  o.set "threads" (.count (Int.bmod threads (Nat.pow 2 32)))

def withTimeLimit (o : Options) (seconds : Float) : Options :=
  o.set "time_limit" (.number seconds)

end Options

end LinProg
