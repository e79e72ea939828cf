/-!
Calls on a receiver. A call answers or fails, leaves a state behind in either case, and tells what
happened on the way. What a failed call did before it failed stays done. A position that a call
looks up has to be there, and a number that it subtracts must not be the larger one.
-/

namespace LinProg

/-- Why a run ends: an index outside of what it addresses, or an engine that refuses to start. -/
inductive Fault where
  | outOfRange
  | refused
  deriving DecidableEq, Inhabited

inductive Failure (ε : Type) where
  | error (e : ε)
  | fault (f : Fault)
  deriving DecidableEq, Inhabited

structure Reply (υ ε σ β : Type) where
  result : Except (Failure ε) β
  state : σ
  events : List υ

def Call (υ ε σ β : Type) : Type :=
  σ → Reply υ ε σ β

def Failure.map {ε ε' : Type} (f : ε → ε') : Failure ε → Failure ε'
  | .error e => .error (f e)
  | .fault f => .fault f

section Place

variable {α : Type}

def place? (xs : List α) (i : Nat) (x : α) : Option (List α) :=
  if i < xs.length then some (xs.set i x) else none

@[simp] theorem place?_eq_none_iff {xs : List α} {i : Nat} {x : α} :
    place? xs i x = none ↔ xs.length ≤ i := by
  simp [place?]

def less? (n k : Nat) : Option Nat :=
  if k ≤ n then some (n - k) else none

theorem less?_of_le {n k : Nat} (h : k ≤ n) : less? n k = some (n - k) :=
  if_pos h

end Place

namespace Call

variable {υ ε ε' σ τ β γ : Type}

protected def pure (b : β) : Call υ ε σ β := fun s =>
  ⟨.ok b, s, []⟩

protected def bind (c : Call υ ε σ β) (k : β → Call υ ε σ γ) : Call υ ε σ γ := fun s =>
  let r := c s
  match r.result with
  | .ok b =>
    let r' := k b r.state
    ⟨r'.result, r'.state, r.events ++ r'.events⟩
  | .error e => ⟨.error e, r.state, r.events⟩

instance : Monad (Call υ ε σ) where
  pure := Call.pure
  bind := Call.bind

def state : Call υ ε σ σ := fun s =>
  ⟨.ok s, s, []⟩

def modify (f : σ → σ) : Call υ ε σ Unit := fun s =>
  ⟨.ok (), f s, []⟩

def emit (e : υ) : Call υ ε σ Unit := fun s =>
  ⟨.ok (), s, [e]⟩

def throw (f : Failure ε) : Call υ ε σ β := fun s =>
  ⟨.error f, s, []⟩

def fail (e : ε) : Call υ ε σ β :=
  throw (.error e)

def require (b : Bool) (e : ε) : Call υ ε σ Unit :=
  if b then pure () else fail e

def ofExcept : Except ε β → Call υ ε σ β
  | .ok b => pure b
  | .error e => fail e

def ofResult : Except (Failure ε) β → Call υ ε σ β
  | .ok b => pure b
  | .error f => throw f

def ofOption : Option β → Call υ ε σ β
  | some b => pure b
  | none => throw (.fault .outOfRange)

def modify? (f : σ → Option σ) : Call υ ε σ Unit := fun s =>
  match f s with
  | some s' => ⟨.ok (), s', []⟩
  | none => ⟨.error (.fault .outOfRange), s, []⟩

def on (part : σ → τ) (put : σ → τ → σ) (wrap : ε → ε') (c : Call υ ε τ β) : Call υ ε' σ β :=
  fun s =>
    let r := c (part s)
    ⟨r.result.mapError (Failure.map wrap), put s r.state, r.events⟩

def thenAlways (c : Call υ ε σ β) (undo : Call υ ε σ Unit) : Call υ ε σ β := fun s =>
  let r := c s
  let u := undo r.state
  ⟨u.result.bind fun _ => r.result, u.state, r.events ++ u.events⟩

/-- Goes on after an error, with the error for an answer. A fault still ends the run. -/
def attempt (c : Call υ ε σ β) : Call υ ε σ (Except ε β) := fun s =>
  let r := c s
  match r.result with
  | .ok b => ⟨.ok (.ok b), r.state, r.events⟩
  | .error (.error e) => ⟨.ok (.error e), r.state, r.events⟩
  | .error (.fault f) => ⟨.error (.fault f), r.state, r.events⟩

/-- A call on a receiver of its own, which is answered too. -/
def within (t : τ) (c : Call υ ε τ β) : Call υ ε σ (β × τ) := fun s =>
  let r := c t
  ⟨r.result.map (·, r.state), s, r.events⟩

def mapError (wrap : ε → ε') (c : Call υ ε σ β) : Call υ ε' σ β :=
  c.on id (fun _ s => s) wrap

@[simp] theorem pure_apply (b : β) (s : σ) :
    (pure b : Call υ ε σ β) s = ⟨.ok b, s, []⟩ := rfl

theorem bind_apply (c : Call υ ε σ β) (k : β → Call υ ε σ γ) (s : σ) :
    (c >>= k) s = match (c s).result with
      | .ok b => ⟨(k b (c s).state).result, (k b (c s).state).state,
          (c s).events ++ (k b (c s).state).events⟩
      | .error e => ⟨.error e, (c s).state, (c s).events⟩ := rfl

@[simp] theorem state_apply (s : σ) : (state : Call υ ε σ σ) s = ⟨.ok s, s, []⟩ := rfl

@[simp] theorem modify_apply (f : σ → σ) (s : σ) :
    (modify f : Call υ ε σ Unit) s = ⟨.ok (), f s, []⟩ := rfl

@[simp] theorem emit_apply (e : υ) (s : σ) :
    (emit e : Call υ ε σ Unit) s = ⟨.ok (), s, [e]⟩ := rfl

@[simp] theorem throw_apply (f : Failure ε) (s : σ) :
    (throw f : Call υ ε σ β) s = ⟨.error f, s, []⟩ := rfl

@[simp] theorem fail_apply (e : ε) (s : σ) :
    (fail e : Call υ ε σ β) s = ⟨.error (.error e), s, []⟩ := rfl

end Call

end LinProg
