import LinProg.Proofs.Binding.Atomic
import LinProg.Proofs.Binding.Enclosed
import LinProg.Proofs.Session.Known

namespace LinProg

variable {α : Type}

namespace Problem

variable {I : List (Model α) → Prop}

theorem keeps_runs_onMatrix {c : MatrixCall (Event α) α Unit}
    (hc : Call.Keeps noteRun (fun runs _ => I runs) c) :
    Call.Keeps noteRun (fun runs _ => I runs) (onMatrix c) :=
  Call.keeps_on (fun _ => rfl) fun _ => hc

theorem keeps_runs_removeLast (n : Nat) :
    Call.Keeps noteRun (fun runs _ => I runs) (removeLast n : ProblemCall α Unit) := by
  refine Call.keeps_bind (keeps_runs_onMatrix ?_) fun _ => Call.keeps_modify fun _ _ h => h
  refine Call.keeps_state_bind fun m => ?_
  exact Call.keeps_bind (Call.keeps_require _ _) fun _ => Call.keeps_modify? fun _ _ _ _ h => h

theorem keeps_runs_setRowRhs (row : Nat) (value : α) :
    Call.Keeps noteRun (fun runs _ => I runs) (setRowRhs row value) := by
  refine Call.keeps_state_bind fun p => ?_
  exact Call.keeps_bind (Call.keeps_require _ _) fun _ => Call.keeps_modify fun _ _ h => h

variable [Scalar α]

theorem keeps_runs_addConstraint (c : Constraint α) :
    Call.Keeps noteRun (fun runs _ => I runs) (addConstraint c) := by
  refine Call.keeps_state_bind fun p => ?_
  refine Call.keeps_bind (Call.keeps_ofExcept _) fun _ => ?_
  refine Call.keeps_bind (keeps_runs_onMatrix ?_) fun _ => ?_
  · refine Call.keeps_state_bind fun m => ?_
    split
    · exact Call.keeps_fail _
    · exact Call.keeps_modify fun _ _ h => h
  · refine Call.keeps_bind (Call.keeps_modify fun _ _ h => h) fun _ => ?_
    refine Call.keeps_state_bind fun p => ?_
    exact Call.keeps_bind (Call.keeps_ofOption _) fun _ => Call.keeps_emit fun _ => rfl

theorem keeps_runs_setCoefficient (row column : Nat) (value : α) :
    Call.Keeps noteRun (fun runs _ => I runs) (setCoefficient row column value) := by
  refine keeps_runs_onMatrix (Call.keeps_state_bind fun m => ?_)
  exact Call.keeps_bind (Call.keeps_ofExcept _) fun _ => Call.keeps_modify? fun _ _ _ _ h => h

end Problem

namespace Session

variable {B : Backend α} {memory : B.Memory}

/-- A closed session that has not run its engine, neither by the record of its runs nor by what the
engine remembers. -/
structure Silent (memory : B.Memory) (runs : List (Model α)) (s : Session B) : Prop
    extends s.Shut where
  memory : s.memory = memory
  runs : runs = []

theorem keeps_silent_optimize :
    Call.Keeps noteRun (Silent memory) (optimize : SessionCall B B.Code) := by
  intro runs s h
  rw [optimize_of_closed h.closed]
  exact h

theorem keeps_silent_change (f : Model α → Model α) :
    Call.Keeps noteRun (Silent memory) (change f : SessionCall B Unit) :=
  Call.keeps_modify fun _ _ h => ⟨⟨h.closed, rfl⟩, h.memory, h.runs⟩

theorem keeps_silent_change? (f : Model α → Option (Model α)) :
    Call.Keeps noteRun (Silent memory) (change? f : SessionCall B Unit) := by
  refine Call.keeps_modify? fun runs s s' hs h => ?_
  obtain ⟨m, -, rfl⟩ := Option.map_eq_some_iff.1 hs
  exact ⟨⟨h.closed, rfl⟩, h.memory, h.runs⟩

theorem keeps_silent_close :
    Call.Keeps noteRun (Silent memory) (close : SessionCall B Unit) :=
  Call.keeps_modify fun _ _ h => ⟨⟨rfl, rfl⟩, h.memory, h.runs⟩

theorem keeps_silent_setAllBounds (bounds : List (Interval α)) :
    Call.Keeps noteRun (Silent memory) (Binding.setAllBounds bounds : SessionCall B Unit) :=
  Call.keeps_forM fun _ _ => keeps_silent_change? _

variable [Scalar α]

theorem keeps_silent_solve :
    Call.Keeps noteRun (Silent memory) (solve : SessionCall B (Solution α)) :=
  Call.keeps_bind keeps_silent_optimize fun _ =>
    Call.keeps_state_bind fun _ => Call.keeps_pure _

theorem answer_of_closed {s : Session B} (h : s.closed = true) (m : Model α) :
    s.answer m = .error (.error .closed) := by
  rw [answer, found, if_pos h]
  rfl

end Session

namespace Binding

variable {B : Backend α} {b : Binding B} {memory : B.Memory}

def Silent (memory : B.Memory) (runs : List (Model α)) (b : Binding B) : Prop :=
  b.session.Silent memory runs

theorem keeps_silent_onSession {β : Type} {c : SessionCall B β}
    (hc : Call.Keeps noteRun (Session.Silent memory) c) :
    Call.Keeps noteRun (Silent memory) (onSession c) :=
  Call.keeps_on (fun _ => rfl) fun _ => hc

theorem keeps_silent_onProblem {β : Type} {c : ProblemCall α β}
    (hc : ∀ I : List (Model α) → Prop, Call.Keeps noteRun (fun runs _ => I runs) c) :
    Call.Keeps noteRun (Silent memory) (onProblem c : BindingCall B β) :=
  Call.keeps_on (fun _ => rfl) fun b => hc fun runs => b.session.Silent memory runs

theorem keeps_silent_checkLength (part : Part) (n : Nat) :
    Call.Keeps noteRun (Silent memory) (checkLength part n : BindingCall B Unit) :=
  Call.keeps_state_bind fun _ => Call.keeps_require _ _

theorem keeps_silent_close :
    Call.Keeps noteRun (Silent memory) (close : BindingCall B Unit) := by
  refine Call.keeps_state_bind fun b => ?_
  split
  · exact Call.keeps_pure _
  · exact Call.keeps_bind (keeps_silent_onSession Session.keeps_silent_close) fun _ =>
      Call.keeps_emit fun _ => rfl

theorem keeps_silent_changeObjective (objective : List α) :
    Call.Keeps noteRun (Silent memory) (changeObjective objective : BindingCall B Unit) := by
  refine Call.keeps_bind (keeps_silent_checkLength _ _) fun _ => ?_
  refine Call.keeps_bind (keeps_silent_onSession (Session.keeps_silent_change _)) fun _ => ?_
  exact keeps_silent_onProblem fun _ => Call.keeps_modify fun _ _ h => h

theorem keeps_silent_changeKinds (kinds : List ColumnKind) :
    Call.Keeps noteRun (Silent memory) (changeKinds kinds : BindingCall B Unit) := by
  have hproblem (f : Problem α → Problem α) :
      Call.Keeps noteRun (Silent memory) (onProblem (Call.modify f) : BindingCall B Unit) :=
    keeps_silent_onProblem fun _ => Call.keeps_modify fun _ _ h => h
  have hsession : Call.Keeps noteRun (Silent memory)
      (onSession (Session.changeKinds kinds) : BindingCall B Unit) :=
    keeps_silent_onSession (Session.keeps_silent_change _)
  refine Call.keeps_bind (keeps_silent_checkLength _ _) fun _ => ?_
  dsimp only
  split
  · exact Call.keeps_bind (hproblem _) fun _ => Call.keeps_bind hsession fun _ => hproblem _
  · exact Call.keeps_bind hsession fun _ => hproblem _

theorem keeps_silent_onProblemRow (row : Nat) {change : Nat → ProblemCall α Unit}
    (hc : ∀ r (I : List (Model α) → Prop), Call.Keeps noteRun (fun runs _ => I runs) (change r)) :
    Call.Keeps noteRun (Silent memory) (onProblemRow row change : BindingCall B Unit) := by
  refine Call.keeps_state_bind fun b => ?_
  refine Call.keeps_bind (Call.keeps_ofOption _) fun r? => ?_
  cases r? with
  | some r => exact keeps_silent_onProblem (hc r)
  | none => exact Call.keeps_pure _

theorem keeps_silent_changeRhs (changes : List (Nat × α)) :
    Call.Keeps noteRun (Silent memory) (changeRhs changes : BindingCall B Unit) := by
  refine Call.keeps_state_bind fun b => ?_
  dsimp only
  split
  · exact Call.keeps_fail _
  · refine Call.keeps_bind (Call.keeps_forM fun c _ => ?_) fun _ =>
      keeps_silent_onSession (Session.keeps_silent_change? _)
    exact keeps_silent_onProblemRow _ fun r _ => Problem.keeps_runs_setRowRhs r _

theorem keeps_silent_removeLast (n : Nat) :
    Call.Keeps noteRun (Silent memory) (removeLast n : BindingCall B Unit) := by
  refine Call.keeps_state_bind fun b => ?_
  refine Call.keeps_bind (Call.keeps_require _ _) fun _ => ?_
  refine Call.keeps_bind (Call.keeps_ofOption _) fun start => ?_
  refine Call.keeps_bind (keeps_silent_onProblem fun _ => Problem.keeps_runs_removeLast _)
    fun _ => ?_
  refine Call.keeps_bind (keeps_silent_onSession (Session.keeps_silent_change? _)) fun _ => ?_
  exact Call.keeps_bind (Call.keeps_modify fun _ _ h => h) fun _ => Call.keeps_emit fun _ => rfl

variable [Scalar α]

theorem keeps_silent_solve :
    Call.Keeps noteRun (Silent memory) (solve : BindingCall B (Solution α)) :=
  keeps_silent_onSession Session.keeps_silent_solve

theorem keeps_silent_solveWith (objective : List α) :
    Call.Keeps noteRun (Silent memory) (solveWith objective : BindingCall B (Solution α)) := by
  refine Call.keeps_bind (keeps_silent_checkLength _ _) fun _ => ?_
  refine Call.keeps_state_bind fun b => keeps_silent_onSession ?_
  refine Call.keeps_thenAlways ?_ (Session.keeps_silent_change _)
  exact Call.keeps_bind (Session.keeps_silent_change _) fun _ => Session.keeps_silent_solve

theorem keeps_silent_solveMaybeWith (objective : Option (List α)) :
    Call.Keeps noteRun (Silent memory)
      (solveMaybeWith objective : BindingCall B (Solution α)) := by
  cases objective with
  | none => exact keeps_silent_solve
  | some objective => exact keeps_silent_solveWith objective

theorem keeps_silent_addConstraint (c : Constraint α) (scope : RowScope) :
    Call.Keeps noteRun (Silent memory) (addConstraint c scope : BindingCall B Unit) := by
  refine Call.keeps_state_bind fun b => ?_
  refine Call.keeps_bind (Call.keeps_ofExcept _) fun _ => ?_
  have hrest : Call.Keeps noteRun (Silent memory) (do
      onSession (Session.addRow c)
      Call.modify fun b => { b with shared := b.shared ++ [scope == .both] }
      let b ← Call.state
      Call.emit (.rowAdded b.name (← Call.ofOption (less? b.numRows 1)) scope) :
        BindingCall B Unit) := by
    refine Call.keeps_bind (keeps_silent_onSession (Session.keeps_silent_change _)) fun _ => ?_
    refine Call.keeps_bind (Call.keeps_modify fun _ _ h => h) fun _ => ?_
    refine Call.keeps_state_bind fun b => ?_
    exact Call.keeps_bind (Call.keeps_ofOption _) fun _ => Call.keeps_emit fun _ => rfl
  dsimp only
  split
  · exact Call.keeps_bind (keeps_silent_onProblem fun _ => Problem.keeps_runs_addConstraint c)
      fun _ => hrest
  · exact hrest

theorem keeps_silent_addConstraints (cs : List (Constraint α)) (scope : RowScope) :
    Call.Keeps noteRun (Silent memory) (addConstraints cs scope : BindingCall B Unit) := by
  refine Call.keeps_state_bind fun b => ?_
  refine Call.keeps_bind (Call.keeps_forM fun _ _ => Call.keeps_ofExcept _) fun _ => ?_
  exact Call.keeps_forM fun c _ => keeps_silent_addConstraint c scope

theorem keeps_silent_addComparison (first : Nat) (sense : Sense) (second : Nat)
    (scope : RowScope) : Call.Keeps noteRun (Silent memory)
      (addComparison first sense second scope : BindingCall B Bool) := by
  rw [addComparison]
  split
  · exact Call.keeps_bind (keeps_silent_addConstraint _ scope) fun _ => Call.keeps_pure _
  · exact Call.keeps_pure _

theorem keeps_silent_changeCoefficients (changes : List (Nat × Nat × α)) :
    Call.Keeps noteRun (Silent memory) (changeCoefficients changes : BindingCall B Unit) := by
  refine Call.keeps_state_bind fun b => ?_
  dsimp only
  split
  · exact Call.keeps_fail _
  · refine Call.keeps_bind (Call.keeps_forM fun c _ => ?_) fun _ =>
      keeps_silent_onSession (Session.keeps_silent_change? _)
    exact keeps_silent_onProblemRow _ fun r _ => Problem.keeps_runs_setCoefficient r _ _

theorem keeps_silent_testConstraint (c : Constraint α) (objective : Option (List α)) :
    Call.Keeps noteRun (Silent memory)
      (testConstraint c objective : BindingCall B (Solution α)) := by
  refine Call.keeps_bind (keeps_silent_addConstraint c _) fun _ => ?_
  refine Call.keeps_bind (Call.keeps_attempt (keeps_silent_solveMaybeWith objective)) fun _ => ?_
  exact Call.keeps_bind (keeps_silent_removeLast 1) fun _ => Call.keeps_ofExcept _

theorem keeps_silent_isFeasible (x : List α) :
    Call.Keeps noteRun (Silent memory) (isFeasible x : BindingCall B Bool) := by
  refine Call.keeps_bind (keeps_silent_checkLength _ _) fun _ => ?_
  refine Call.keeps_state_bind fun b => ?_
  refine Call.keeps_bind (Call.keeps_ofOption _) fun outside => ?_
  cases outside with
  | some column => exact Call.keeps_bind (Call.keeps_emit fun _ => rfl) fun _ => Call.keeps_pure _
  | none =>
    refine Call.keeps_bind (keeps_silent_onSession ?_) fun _ => Call.keeps_pure _
    refine Call.keeps_thenAlways ?_ (Session.keeps_silent_setAllBounds _)
    refine Call.keeps_bind (Session.keeps_silent_setAllBounds _) fun _ => ?_
    refine Call.keeps_bind Session.keeps_silent_optimize fun _ => ?_
    exact Call.keeps_bind (Call.keeps_emit fun _ => rfl) fun _ => Call.keeps_pure _

end Binding

variable [Scalar α]

open Binding in
theorem Probe.keeps_silent {B : Backend α} {memory : B.Memory} (p : Probe α) :
    Call.Keeps noteRun (Silent memory) (p.call : BindingCall B (Answer α)) := by
  obtain ⟨-, hcall⟩ | ⟨x, rfl⟩ := p.call_cases (B := B)
  · rw [hcall, solution]
    cases p.row? with
    | none => exact Call.keeps_bind (keeps_silent_solveMaybeWith _) fun _ => Call.keeps_pure _
    | some c => exact Call.keeps_bind (keeps_silent_testConstraint c _) fun _ => Call.keeps_pure _
  · exact Call.keeps_bind (keeps_silent_isFeasible x) fun _ => Call.keeps_pure _

namespace Command

open Binding

variable {B : Backend α} {memory : B.Memory}

theorem keeps_silent (c : Command α) :
    Call.Keeps noteRun (Silent memory) (c.call : BindingCall B (Answer α)) := by
  have hthen {β : Type} {call : BindingCall B β} (h : Call.Keeps noteRun (Silent memory) call)
      (a : β → Answer α) : Call.Keeps noteRun (Silent memory) (call >>= fun x => pure (a x)) :=
    Call.keeps_bind h fun x => Call.keeps_pure (a x)
  cases c with
  | probe p => exact p.keeps_silent
  | changeObjective objective => exact hthen (keeps_silent_changeObjective objective) _
  | changeKinds kinds => exact hthen (keeps_silent_changeKinds kinds) _
  | addConstraint c scope => exact hthen (keeps_silent_addConstraint c scope) _
  | addConstraints cs scope => exact hthen (keeps_silent_addConstraints cs scope) _
  | addComparison first sense second scope =>
    exact hthen (keeps_silent_addComparison first sense second scope) _
  | addBound index sense value scope => exact hthen (keeps_silent_addConstraint _ scope) _
  | removeLast n => exact hthen (keeps_silent_removeLast n) _
  | changeCoefficients changes => exact hthen (keeps_silent_changeCoefficients changes) _
  | changeRhs changes => exact hthen (keeps_silent_changeRhs changes) _
  | close => exact hthen keeps_silent_close _
  | rename name => exact hthen (Call.keeps_modify fun _ _ h => h) fun _ => .done

theorem probe_of_solved {b : Binding B} {c : Command α} {s : Solution α}
    (h : (c.call b).result = .ok (.solved s)) : ∃ p, c = .probe p := by
  have hother {β : Type} (call : BindingCall B β) {a : β → Answer α} (ha : ∀ x, a x ≠ .solved s)
      (hs : ((call >>= fun x => pure (a x)) b).result = .ok (.solved s)) : False := by
    obtain ⟨x, -, hx⟩ := Call.result_bind_eq_ok hs
    exact ha x (Except.ok.inj hx)
  cases c with
  | probe p => exact ⟨p, rfl⟩
  | _ => exact (hother _ (by simp) h).elim

end Command

namespace Binding

variable {B : Backend α} {b : Binding B} {memory : B.Memory}

theorem Silent.after (h : b.Silent memory []) (cs : List (Command α)) :
    (b.after cs).Silent memory [] := by
  refine keeps_after (P := fun b => b.Silent memory []) (fun b c hb => ?_) h cs
  have hstep := c.keeps_silent [] b hb
  exact ⟨hstep.toShut, hstep.memory, rfl⟩

theorem closed_withConstraints (b : Binding B) (scope : RowScope) (cs : List (Constraint α)) :
    (b.withConstraints scope cs).session.closed = b.session.closed := by
  induction cs generalizing b with
  | nil => rfl
  | cons c cs ih => exact (ih (b.withConstraint scope c)).trans rfl

theorem Step.shut {b' : Binding B} {rs : List (NewRow α)} (hs : b.Step rs b')
    (hopen : b.session.closed = false) (hclosed : b'.session.closed = true) :
    b'.session.Shut := by
  have hsame (h : b'.session.closed = b.session.closed) : b'.session.Shut := by
    rw [h, hopen] at hclosed
    cases hclosed
  cases hs with
  | unmoved hb => exact hsame hb.session.closed
  | appended scope hcs => exact hsame (closed_withConstraints b scope _)
  | leftover hc hb => exact hsame hb.session.closed
  | closed => exact ⟨rfl, rfl⟩
  | objective | kinds | removed | written | renamed => exact hsame rfl

theorem Reachable.silent (h : b.Reachable) (hclosed : b.session.closed = true) :
    b.Silent b.session.memory [] := by
  suffices hshut : b.session.Shut from ⟨hshut, rfl, rfl⟩
  induction h with
  | bound h =>
    obtain ⟨-, -, rows, -, rfl⟩ := bind_eq_ok h
    cases hclosed
  | @call b hb c ih =>
    cases hopen : b.session.closed with
    | false => exact (c.step hb.aligned).shut hopen hclosed
    | true => exact (c.keeps_silent [] b ⟨ih hopen, rfl, rfl⟩).toShut

theorem Reachable.silent_of_close (h : b.Reachable) :
    (Command.close.call b).state.Silent b.session.memory [] := by
  cases hclosed : b.session.closed with
  | true =>
    rw [Command.call, Call.bind_of_ok (close_again hclosed)]
    exact h.silent hclosed
  | false =>
    rw [Command.call, Call.bind_of_ok (close_apply hclosed)]
    exact ⟨⟨rfl, rfl⟩, rfl, rfl⟩

theorem Reachable.after (h : b.Reachable) (cs : List (Command α)) : (b.after cs).Reachable :=
  keeps_after (fun _ c hb => hb.call c) h cs

theorem answer_of_closed (hclosed : b.session.closed = true) (m : Model α)
    {objective : Option (List α)} (ho : ∀ o ∈ objective, o.length = b.problem.columns) :
    b.answer m objective = .error (.error .closed) := by
  cases objective with
  | none => exact Session.answer_of_closed hclosed m
  | some objective =>
    rw [answer, if_pos (ho objective rfl)]
    exact Session.answer_of_closed hclosed _

end Binding

theorem Probe.result_of_closed {B : Backend α} {b : Binding B} (h : b.Aligned)
    (hclosed : b.session.closed = true) {p : Probe α} (hp : p.Allowed b)
    (hpoint : p.point? = none) : (p.call b).result = .error (.error .closed) := by
  obtain ⟨-, hcall⟩ | ⟨x, rfl⟩ := p.call_cases (B := B)
  · have hanswer : (p.solution b).result = .error (.error .closed) := by
      rw [solution]
      cases hrow : p.row? with
      | none => rw [Binding.result_solveMaybeWith, Binding.answer_of_closed hclosed _ hp.override]
      | some c =>
        have hc := Constraint.checkColumns_eq_ok.2 (hp.row c hrow)
        rw [Binding.result_testConstraint h, Binding.answerWithRow, hc]
        exact Binding.answer_of_closed hclosed _ hp.override
    rw [hcall, Call.bind_pure_apply, hanswer]
    rfl
  · cases hpoint

theorem Command.result_ne_solved {B : Backend α} {b : Binding B} (hb : b.Aligned)
    (hclosed : b.session.closed = true) (c : Command α) (s : Solution α) :
    (c.call b).result ≠ .ok (.solved s) := by
  intro hs
  obtain ⟨p, rfl⟩ := c.probe_of_solved hs
  obtain ⟨hanswer, -⟩ := p.answer_of_solved hb hs
  rw [Session.answer_of_closed hclosed] at hanswer
  cases hanswer

namespace Binding

variable {B : Backend α} {b : Binding B}

omit [Scalar α] in
theorem Silent.knows_nothing {memory : B.Memory} {runs : List (Model α)}
    (h : b.Silent memory runs) :
    b.session.code? = none ∧ b.session.values? = none ∧ b.session.objective? = none := by
  simp [Session.code?, Session.values?, Session.objective?, h.last]

/-- Once a binding was closed, whatever is called: it stays closed, its engine is not run again, it
knows of no outcome and finds no solution. Calls that want a run are told that the session is
closed; only a point that is not within the bounds is still answered. All changes can be made, and
the two sides stay aligned. -/
theorem closed_never_solves (h : b.Reachable) (cs : List (Command α)) :
    let b' := (Command.close.call b).state.after cs
    (b'.isClosed = true ∧ b'.session.code? = none ∧ b'.session.values? = none ∧
      b'.session.objective? = none ∧ b'.session.memory = b.session.memory ∧
      close b' = ⟨.ok (), b', []⟩) ∧
    (∀ c : Command α, (c.call b').events.foldl noteRun [] = [] ∧
      (∀ s, (c.call b').result ≠ .ok (.solved s)) ∧ (c.call b').state.Aligned) ∧
    (∀ p : Probe α, p.point? = none → p.Allowed b' →
      (p.call b').result = .error (.error .closed)) ∧
    (∀ x, x.length = b'.numCols →
      (b'.problem.Encloses x → (isFeasible x b').result = .error (.error .closed)) ∧
      (b'.problem.Excludes x → (isFeasible x b').result = .ok false)) ∧
    (∀ c : Command α, (∀ p, c ≠ .probe p) → c.Fits b' →
      ∃ a b'' es, c.call b' = ⟨.ok a, b'', es⟩ ∧
        b''.session.model.rows = c.rowsAfter b'.session.model.rows) ∧
    (∀ objective, objective.length = b'.numCols →
      changeObjective objective b' = ⟨.ok (), b'.withObjective objective, []⟩) ∧
    ∀ kinds, kinds.length = b'.numCols →
      changeKinds kinds b' = ⟨.ok (), b'.withKinds kinds, []⟩ := by
  intro b'
  have hsilent : b'.Silent b.session.memory [] := h.silent_of_close.after cs
  have hreach : b'.Reachable := (h.call .close).after cs
  have hclosed : b'.session.closed = true := hsilent.closed
  obtain ⟨hcode, hvalues, hobjective⟩ := hsilent.knows_nothing
  refine ⟨⟨hclosed, hcode, hvalues, hobjective, hsilent.memory, close_again hclosed⟩,
    fun c => ⟨(c.keeps_silent [] b' hsilent).runs, c.result_ne_solved hreach.aligned hclosed,
      (hreach.call c).aligned⟩,
    fun p hpoint hp => p.result_of_closed hreach.aligned hclosed hp hpoint,
    fun x hx => ⟨fun hin => ?_, fun hout => ?_⟩, fun c hc hfits => ?_,
    fun _ => changeObjective_apply, fun _ => changeKinds_apply⟩
  · rw [(isFeasible_of_encloses hreach.aligned hx hin).1, Session.found, if_pos hclosed]
    rfl
  · obtain ⟨k, hk⟩ := isFeasible_of_excludes hreach.aligned hx hout
    rw [hk]
  · obtain ⟨-, a, b'', es, hcall, -, hrows⟩ | ⟨hno, -⟩ := c.settled hreach.aligned hc
    · exact ⟨a, b'', es, hcall, hrows⟩
    · exact absurd hfits hno

/-- After a solve that was refused and a row that was added. -/
theorem mixedRows_closed_never_solves :
    let cs := [.probe .solve, .addBound 0 .equal 1 .both]
    let b' := (Command.close.call mixedRows).state.after cs
    let write : Command Extended := .changeRhs [(2, 0)]
    mixedRows.Reachable ∧ b'.shared = [true, false, true] ∧ b'.isClosed = true ∧
      ((Command.probe .solve).call b').events.foldl noteRun [] = [] ∧
      (Probe.solve.call b').result = .error (.error .closed) ∧
      (isFeasible [1] b').result = .error (.error .closed) ∧
      (isFeasible [.nan] b').result = .ok false ∧
      ∃ a b'' es, write.call b' = ⟨.ok a, b'', es⟩ ∧
        b''.session.model.rows = write.rowsAfter b'.session.model.rows := by
  intro cs b' write
  obtain ⟨⟨hclosed, -⟩, hcalls, hprobes, hpoints, hchanges, -, -⟩ :=
    closed_never_solves mixedRows_reachable cs
  have hsolve : Probe.solve.Allowed b' := ⟨by simp [Probe.override?], by simp [Probe.row?],
    by simp [Probe.point?]⟩
  have hin : b'.problem.Encloses [1] := between_cons.2 ⟨⟨rfl, rfl⟩, between_nil⟩
  have hout : b'.problem.Excludes [.nan] := ⟨0, .nan, .negInf, .posInf, rfl, rfl, rfl, .inl rfl⟩
  have hwrite : write.Fits b' := by
    have hlength : b'.shared.length = 3 := rfl
    simp [write, Command.Fits, hlength]
  exact ⟨mixedRows_reachable, rfl, hclosed, (hcalls (.probe .solve)).1, hprobes .solve rfl hsolve,
    (hpoints [1] rfl).1 hin, (hpoints [.nan] rfl).2 hout, hchanges write (by simp [write]) hwrite⟩

end Binding

end LinProg
