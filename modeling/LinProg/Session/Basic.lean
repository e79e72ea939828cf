import LinProg.Session.Backend

/-!
`SolverSession`: a model loaded for a backend, which can be changed and run again. Every change of
the model forgets the outcome of the last run.
-/

namespace LinProg

variable {α : Type} [Scalar α]

def Problem.modelRows? (p : Problem α) : Option (List (ModelRow α)) :=
  p.matrix.rows.zipIdx.mapM fun (terms, i) => do
    let sense ← p.senses[i]?
    let rhs ← p.rhs[i]?
    let range ← match p.ranges with
      | none => some 0
      | some values => values[i]?
    return ⟨terms, sense, rhs, range⟩

def Problem.model? (p : Problem α) : Option (Model α) := do
  return {
    direction := p.direction
    objective := p.objective
    lower := p.lower
    upper := p.upper
    kinds := p.kinds
    rows := ← p.modelRows? }

structure Session (B : Backend α) where
  model : Model α
  last : Option (Outcome B.Code α)
  closed : Bool
  memory : B.Memory

abbrev SessionCall (B : Backend α) (β : Type) := Call (Event α) (SolverError α) (Session B) β

namespace Session

variable {B : Backend α}

/-- Loads a problem. Problems with a quadratic part are not supported. -/
def bind (B : Backend α) (memory : B.Memory) (p : Problem α) :
    Except (Failure (SolverError α)) (Session B) :=
  if p.kind.isQuadratic then .error (.error (.unsupported p.kind))
  else
    match p.model? with
    | some model => .ok ⟨model, none, false, memory⟩
    | none => .error (.fault .outOfRange)

def code? (s : Session B) : Option B.Code :=
  s.last.map (·.code)

def values? (s : Session B) : Option (List α) :=
  s.last.bind (·.values)

def objective? (s : Session B) : Option α :=
  s.last.bind (·.objective)

def optimize : SessionCall B B.Code := do
  let s ← Call.state
  Call.require (!s.closed) .closed
  Call.emit (.ran s.model)
  let (result, memory) := B.run s.model s.memory
  Call.modify ({ · with memory })
  let outcome ← Call.ofResult result
  Call.emit (.finished B.sessionName (B.codeName outcome.code))
  Call.modify ({ · with last := some outcome })
  return outcome.code

def change (f : Model α → Model α) : SessionCall B Unit :=
  Call.modify fun s => { s with model := f s.model, last := none }

def change? (f : Model α → Option (Model α)) : SessionCall B Unit :=
  Call.modify? fun s => (f s.model).map fun model => { s with model, last := none }

def changeObjective (objective : List α) : SessionCall B Unit :=
  change (·.withObjective objective)

def changeKinds (kinds : List ColumnKind) : SessionCall B Unit :=
  change (·.withKinds kinds)

def addRow (c : Constraint α) : SessionCall B Unit :=
  change (·.addRow c)

def deleteRows (first last : Nat) : SessionCall B Unit :=
  change? (·.deleteRows? first last)

def setBounds (column : Nat) (lower upper : α) : SessionCall B Unit :=
  change? (·.setBounds? column lower upper)

def changeCoefficients (changes : List (Nat × Nat × α)) : SessionCall B Unit :=
  change? (·.changeCoefficients? changes)

def changeRhs (changes : List (Nat × α)) : SessionCall B Unit :=
  change? (·.changeRhs? changes)

def close : SessionCall B Unit :=
  Call.modify fun s => { s with closed := true, last := none }

end Session

end LinProg
