import LinProg.Backend.Script
import LinProg.Proofs.Scalar.Binary
import LinProg.Proofs.Session

/-!
What a session knows of its runs. The outcome of a run is known for as long as calls only fail after
it: every other call forgets it, or has an outcome of its own. So whatever is known was found on the
model as it stands.
-/

namespace LinProg

inductive SessionCommand (α : Type) where
  | optimize
  | changeObjective (objective : List α)
  | changeKinds (kinds : List ColumnKind)
  | addRow (c : Constraint α)
  | deleteRows (first last : Nat)
  | setBounds (column : Nat) (lower upper : α)
  | changeCoefficients (changes : List (Nat × Nat × α))
  | changeRhs (changes : List (Nat × α))
  | close

variable {α : Type} [Scalar α] {B : Backend α}

namespace SessionCommand

def call : SessionCommand α → SessionCall B Unit
  | optimize => do
    let _ ← Session.optimize
    return ()
  | changeObjective objective => Session.changeObjective objective
  | changeKinds kinds => Session.changeKinds kinds
  | addRow c => Session.addRow c
  | deleteRows first last => Session.deleteRows first last
  | setBounds column lower upper => Session.setBounds column lower upper
  | changeCoefficients changes => Session.changeCoefficients changes
  | changeRhs changes => Session.changeRhs changes
  | close => Session.close

def GoesThrough (c : SessionCommand α) (s : Session B) : Prop :=
  (c.call s).result = .ok ()

def InRange (m : Model α) : SessionCommand α → Prop
  | deleteRows first last => first ≤ last ∧ last ≤ m.numRows
  | setBounds column _ _ => column < m.lower.length ∧ column < m.upper.length
  | changeCoefficients changes => ∀ c ∈ changes, c.1 < m.numRows
  | changeRhs changes => ∀ c ∈ changes, c.1 < m.numRows
  | optimize | changeObjective _ | changeKinds _ | addRow _ | close => True

end SessionCommand

namespace Session

def after (s : Session B) (cs : List (SessionCommand α)) : Session B :=
  cs.foldl (fun s c => (c.call s).state) s

@[simp] theorem after_cons (s : Session B) (c : SessionCommand α) (cs : List (SessionCommand α)) :
    s.after (c :: cs) = (c.call s).state.after cs := rfl

theorem after_append (s : Session B) (cs cs' : List (SessionCommand α)) :
    s.after (cs ++ cs') = (s.after cs).after cs' :=
  List.foldl_append

/-- The session is open, and a run of it ends with this outcome. -/
structure Runs (s : Session B) (o : Outcome B.Code α) : Prop where
  isOpen : s.closed = false
  run : (B.run s.model s.memory).1 = .ok o

def AllFail (s : Session B) : List (SessionCommand α) → Prop
  | [] => True
  | c :: cs => ¬ c.GoesThrough s ∧ (c.call s).state.AllFail cs

/-- The last of the calls that goes through is a run of the session `t`, with this outcome. -/
def LastRan (s : Session B) (cs : List (SessionCommand α)) (t : Session B)
    (o : Outcome B.Code α) : Prop :=
  ∃ before rest, cs = before ++ .optimize :: rest ∧ t = s.after before ∧ t.Runs o ∧
    ((SessionCommand.optimize.call t).state).AllFail rest

theorem LastRan.cons {s t : Session B} {c : SessionCommand α} {cs : List (SessionCommand α)}
    {o : Outcome B.Code α} (h : (c.call s).state.LastRan cs t o) : s.LastRan (c :: cs) t o := by
  obtain ⟨before, rest, rfl, ht, hruns, hfail⟩ := h
  exact ⟨c :: before, rest, rfl, ht, hruns, hfail⟩

end Session

/-- The call changes nothing but what the backend remembers. -/
structure Session.Idle (s s' : Session B) : Prop extends s.Unmoved s' where
  last : s'.last = s.last

omit [Scalar α] in
theorem Session.Idle.trans {s s' s'' : Session B} (h : s.Idle s') (h' : s'.Idle s'') :
    s.Idle s'' :=
  ⟨h.toUnmoved.trans h'.toUnmoved, h'.last.trans h.last⟩

theorem Session.Runs.call {s : Session B} {o : Outcome B.Code α} (h : s.Runs o) :
    SessionCommand.optimize.call s =
      ⟨.ok (), { s with memory := (B.run s.model s.memory).2, last := some o },
        [.ran s.model, .finished B.sessionName (B.codeName o.code)]⟩ := by
  rw [SessionCommand.call, Call.bind_pure_apply, optimize_of_run h.isOpen (Prod.ext h.run rfl)]
  rfl

namespace SessionCommand

/-- What a call can do to what is known. -/
inductive Effect (c : SessionCommand α) (s : Session B) : Prop
  | ran {o : Outcome B.Code α} (isRun : c = .optimize) (runs : s.Runs o)
  | forgot (goes : c.GoesThrough s) (last : (c.call s).state.last = none)
    (closed : s.closed = true → (c.call s).state.closed = true)
  | failed (fails : ¬ c.GoesThrough s) (idle : s.Idle (c.call s).state)

theorem effect_optimize (s : Session B) : (optimize : SessionCommand α).Effect s := by
  cases hclosed : s.closed with
  | true =>
    have hcall : (optimize : SessionCommand α).call s = ⟨.error (.error .closed), s, []⟩ := by
      rw [call, Call.bind_pure_apply, Session.optimize_of_closed hclosed]
      rfl
    refine .failed ?_ ?_
    · simp [GoesThrough, hcall]
    · rw [hcall]
      exact ⟨.refl s, rfl⟩
  | false =>
    rcases hrun : B.run s.model s.memory with ⟨result, memory⟩
    cases result with
    | ok o => exact .ran rfl ⟨hclosed, by rw [hrun]⟩
    | error f =>
      have hcall : (optimize : SessionCommand α).call s =
          ⟨.error f, { s with memory }, [.ran s.model]⟩ := by
        rw [call, Call.bind_pure_apply, Session.optimize_of_error hclosed hrun]
        rfl
      refine .failed ?_ ?_
      · simp [GoesThrough, hcall]
      · rw [hcall]
        exact ⟨⟨rfl, rfl⟩, rfl⟩

def change? (m : Model α) : SessionCommand α → Option (Model α)
  | changeObjective objective => some (m.withObjective objective)
  | changeKinds kinds => some (m.withKinds kinds)
  | addRow c => some (m.addRow c)
  | deleteRows first last => m.deleteRows? first last
  | setBounds column lower upper => m.setBounds? column lower upper
  | changeCoefficients changes => m.changeCoefficients? changes
  | changeRhs changes => m.changeRhs? changes
  | optimize | close => some m

theorem call_eq_change? {c : SessionCommand α} (ho : c ≠ .optimize) (hc : c ≠ .close) :
    (c.call : SessionCall B Unit) = Session.change? c.change? := by
  cases c with
  | optimize => exact absurd rfl ho
  | close => exact absurd rfl hc
  | _ => rfl

theorem exists_change? {c : SessionCommand α} {m : Model α} (h : c.InRange m) :
    ∃ m', c.change? m = some m' := by
  cases c with
  | optimize | close | changeObjective | changeKinds | addRow => exact ⟨_, rfl⟩
  | deleteRows first last => exact ⟨_, if_pos h⟩
  | setBounds column lower upper => exact ⟨_, Model.setBounds?_eq h.1 h.2 lower upper⟩
  | changeCoefficients changes => exact ⟨_, Model.changeCoefficients?_eq h⟩
  | changeRhs changes => exact ⟨_, Model.changeRhs?_eq h⟩

theorem effect (c : SessionCommand α) (s : Session B) : c.Effect s := by
  by_cases ho : c = .optimize
  · exact ho ▸ effect_optimize s
  by_cases hc : c = .close
  · subst hc
    exact .forgot rfl rfl fun _ => rfl
  have hcall := congrFun (call_eq_change? (B := B) ho hc) s
  cases hm : c.change? s.model with
  | some m =>
    rw [Session.change?_apply hm] at hcall
    refine .forgot ?_ ?_ fun hclosed => ?_
    · rw [GoesThrough, hcall]
    · rw [hcall]
      rfl
    · rw [hcall]
      exact hclosed
  | none =>
    rw [Session.change?_refused hm] at hcall
    refine .failed ?_ ?_
    · simp [GoesThrough, hcall]
    · rw [hcall]
      exact ⟨.refl s, rfl⟩

theorem goesThrough_of_inRange {c : SessionCommand α} {s : Session B} (ho : c ≠ .optimize)
    (h : c.InRange s.model) : c.GoesThrough s := by
  by_cases hc : c = .close
  · subst hc
    rfl
  · obtain ⟨m, hm⟩ := exists_change? h
    rw [GoesThrough, call_eq_change? ho hc, Session.change?_apply hm]

end SessionCommand

namespace Session

theorem AllFail.idle {s : Session B} {cs : List (SessionCommand α)} (h : s.AllFail cs) :
    s.Idle (s.after cs) := by
  induction cs generalizing s with
  | nil => exact ⟨.refl s, rfl⟩
  | cons c cs ih =>
    obtain ⟨hc, hcs⟩ := h
    cases c.effect s with
    | ran isRun runs =>
      subst isRun
      exact absurd (congrArg Reply.result runs.call) hc
    | forgot goes => exact absurd goes hc
    | failed _ idle => exact idle.trans (ih hcs)

theorem LastRan.current {s t : Session B} {cs : List (SessionCommand α)} {o : Outcome B.Code α}
    (h : s.LastRan cs t o) : t.Unmoved (s.after cs) ∧ (s.after cs).last = some o := by
  obtain ⟨before, rest, rfl, rfl, hruns, hfail⟩ := h
  rw [after_append, after_cons]
  have hidle := hfail.idle
  rw [hruns.call] at hidle
  rw [hruns.call]
  exact ⟨⟨hidle.model, hidle.closed⟩, hidle.last⟩

/-- What is known is from the last call that went through, or it was known before. -/
theorem last_after {s : Session B} {cs : List (SessionCommand α)} {o : Outcome B.Code α}
    (h : (s.after cs).last = some o) :
    (∃ t, s.LastRan cs t o) ∨ s.AllFail cs ∧ s.last = some o := by
  induction cs generalizing s with
  | nil => exact .inr ⟨trivial, h⟩
  | cons c cs ih =>
    rw [after_cons] at h
    obtain ⟨t, ht⟩ | ⟨hfail, hlast⟩ := ih h
    · exact .inl ⟨t, ht.cons⟩
    · cases c.effect s with
      | ran isRun runs =>
        subst isRun
        rw [runs.call] at hlast
        obtain rfl := Option.some.inj hlast
        exact .inl ⟨s, [], cs, rfl, rfl, runs, hfail⟩
      | forgot _ last => simp [last] at hlast
      | failed fails idle => exact .inr ⟨⟨fails, hfail⟩, idle.last.symm.trans hlast⟩

structure Shut (s : Session B) : Prop where
  closed : s.closed = true
  last : s.last = none

theorem Shut.after {s : Session B} (h : s.Shut) (cs : List (SessionCommand α)) :
    (s.after cs).Shut := by
  induction cs generalizing s with
  | nil => exact h
  | cons c cs ih =>
    refine ih ?_
    cases c.effect s with
    | ran _ runs => exact absurd (h.closed.symm.trans runs.isOpen) (by simp)
    | forgot _ last closed => exact ⟨closed h.closed, last⟩
    | failed _ idle => exact ⟨idle.closed.trans h.closed, idle.last.trans h.last⟩

theorem shut_of_close {s : Session B} {cs : List (SessionCommand α)}
    (h : SessionCommand.close ∈ cs) : (s.after cs).Shut := by
  obtain ⟨before, rest, rfl⟩ := List.append_of_mem h
  rw [after_append, after_cons]
  exact Shut.after ⟨rfl, rfl⟩ rest

/-- What the session says of its last run is this outcome. -/
structure Knows (s : Session B) (o : Outcome B.Code α) : Prop where
  code : s.code? = some o.code
  values : s.values? = o.values
  objective : s.objective? = o.objective

omit [Scalar α] in
theorem knows_of_last {s : Session B} {o : Outcome B.Code α} (h : s.last = some o) :
    s.Knows o := by
  constructor <;> simp [code?, values?, objective?, h]

omit [Scalar α] in
theorem exists_last {s : Session B}
    (h : s.code?.isSome ∨ s.values?.isSome ∨ s.objective?.isSome) : ∃ o, s.last = some o := by
  cases hlast : s.last with
  | some o => exact ⟨o, rfl⟩
  | none => simp [code?, values?, objective?, hlast] at h

theorem last_of_bind {memory : B.Memory} {p : Problem α} {s : Session B}
    (h : bind B memory p = .ok s) : s.last = none := by
  cases hk : p.kind.isQuadratic with
  | true => simp [bind, hk] at h
  | false =>
    cases hm : p.model? with
    | none => simp [bind, hk, hm] at h
    | some m =>
      rw [bind, hk, hm] at h
      obtain rfl := Except.ok.inj h
      rfl

/-- A session that says anything of a run says what came of the last run that went through, and its
model is still the one of that run: no other call has gone through since. A closed session says
nothing. In every state the changes whose places exist do go through, and so forget. -/
theorem known_outcome_is_current {memory : B.Memory} {p : Problem α} {s : Session B}
    (h : bind B memory p = .ok s) (cs : List (SessionCommand α)) :
    ((s.after cs).code?.isSome ∨ (s.after cs).values?.isSome ∨ (s.after cs).objective?.isSome →
      ∃ t o, s.LastRan cs t o ∧ (s.after cs).Knows o ∧ (s.after cs).model = t.model) ∧
    (∀ t o, s.LastRan cs t o → (s.after cs).Knows o ∧ (s.after cs).model = t.model) ∧
    (.close ∈ cs → (s.after cs).code? = none ∧ (s.after cs).values? = none ∧
      (s.after cs).objective? = none) ∧
    (∀ c : SessionCommand α, c ≠ .optimize → c.InRange (s.after cs).model →
      c.GoesThrough (s.after cs)) := by
  refine ⟨fun hknown => ?_, fun t o ht => ?_, fun hclose => ?_, fun c => ?_⟩
  · obtain ⟨o, ho⟩ := exists_last hknown
    obtain ⟨t, ht⟩ | ⟨_, hlast⟩ := last_after ho
    · exact ⟨t, o, ht, knows_of_last ho, ht.current.1.model⟩
    · simp [last_of_bind h] at hlast
  · obtain ⟨hmodel, hlast⟩ := ht.current
    exact ⟨knows_of_last hlast, hmodel.model⟩
  · simp [code?, values?, objective?, (shut_of_close (s := s) hclose).last]
  · exact SessionCommand.goesThrough_of_inRange

def oneBox : Problem Float where
  columns := 1
  kind := .linear
  direction := .maximise
  objective := [1]
  lower := [0]
  upper := [1]
  kinds := [.continuous]
  matrix := ⟨1, []⟩
  rhs := []
  senses := []
  ranges := none

def answersOnce : Session scripted where
  model := oneBox.modelWith []
  last := none
  closed := false
  memory := [.answer .optimal [("x0", 1)], .failure "no licence"]

theorem answersOnce_known :
    let cs := [.addRow (.bound 0 .lessEq 1), .optimize, .deleteRows 2 3, .optimize]
    bind scripted answersOnce.memory oneBox = .ok answersOnce ∧
      (answersOnce.after cs).code? = some Written.Code.optimal ∧
      ((∃ t o, answersOnce.LastRan cs t o ∧ (answersOnce.after cs).Knows o ∧
        (answersOnce.after cs).model = t.model) ∧
      (SessionCommand.deleteRows 0 1).GoesThrough (answersOnce.after cs)) := by
  intro cs
  have hbind : bind scripted answersOnce.memory oneBox = .ok answersOnce := rfl
  have hcode : (answersOnce.after cs).code? = some Written.Code.optimal := rfl
  obtain ⟨hknown, -, -, hchange⟩ := known_outcome_is_current hbind cs
  refine ⟨hbind, hcode, hknown (.inl (by rw [hcode]; rfl)), hchange (.deleteRows 0 1) (by simp) ?_⟩
  exact ⟨Nat.zero_le 1, Nat.le_refl 1⟩

end Session

end LinProg
