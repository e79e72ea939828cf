import LinProg.Model

/-!
Events: what a call tells about the changes it made and the engine runs it asked for. Most of them
have a message for a log; the levels say how much a reader of the log may care.
-/

namespace LinProg

inductive RowScope where
  | both
  | sessionOnly
  deriving DecidableEq, Inhabited

def RowScope.name : RowScope → String
  | .both => "Mirror"
  | .sessionOnly => "SessionOnly"

inductive Event (α : Type) where
  | rowAppended (row : Nat) (constraint : Constraint α)
  | bound (kind : ProblemKind) (rows columns : Nat) (solver : String)
  | rowAdded (name : String) (row : Nat) (scope : RowScope)
  | rowsRemoved (name : String) (count : Nat)
  | closed (name : String)
  | ran (model : Model α)
  | finished (session code : String)
  | outsideBounds (name : String) (column : Nat)
  | pointTried (name code : String)
  | lineSet (origin direction : List α)
  | lineLost (origin direction : List α) (status : Status)
  | moved (point : List α)
  | sampled (count dimension steps : Nat)

inductive Level where
  | trace
  | debug
  | warn
  deriving DecidableEq

def Level.name : Level → String
  | .trace => "trace"
  | .debug => "debug"
  | .warn => "warn"

namespace Event

def listText (f : β → String) (xs : List β) : String :=
  "[" ++ ", ".intercalate (xs.map f) ++ "]"

variable {α : Type} [Numeral α]

def constraintText (c : Constraint α) : String :=
  let range := match c.range with
    | some r => s!"Some({Numeral.long r})"
    | none => "None"
  s!"Constraint \x7b indices: {listText toString c.indices}, " ++
    s!"coeffs: {listText Numeral.long c.coeffs}, sense: {c.sense.name}, " ++
    s!"rhs: {Numeral.long c.rhs}, range: {range} \x7d"

def message? : Event α → Option (Level × String)
  | .rowAppended row c => some (.trace, s!"added row {row} {constraintText c}")
  | .bound kind rows columns solver => some (.debug,
    s!"bound a {kind.name} problem with {rows} rows and {columns} columns to {solver}")
  | .rowAdded name row scope => some (.debug, s!"{name}: added row {row} ({scope.name})")
  | .rowsRemoved name count => some (.debug, s!"{name}: removed the last {count} rows")
  | .closed name => some (.debug, s!"{name}: session closed")
  | .ran _ => none
  | .finished session code => some (.trace, s!"{session} finished with status {code}")
  | .outsideBounds name column => some (.trace, s!"{name}: column {column} is out of its bounds")
  | .pointTried name code => some (.trace, s!"{name}: fixed point solved with status {code}")
  | .lineSet _ _ => none
  | .lineLost origin direction status => some (.warn,
    s!"line intersection from {listText Numeral.long origin} " ++
      s!"along {listText Numeral.long direction} ended with status {status.name}")
  | .moved _ => none
  | .sampled count dimension steps => some (.debug,
    s!"drew {count} samples of dimension {dimension} with {steps} steps each")

end Event

end LinProg
