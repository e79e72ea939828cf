import LinProg.Proofs.Backend.InRange
import LinProg.Proofs.Binding.Reachable
import LinProg.Proofs.Binding.Runs
import LinProg.Proofs.Problem.Truth

namespace LinProg

variable {α : Type} [Scalar α]

namespace SolverError

/-- What the error says is so of a problem, as far as it says anything of one. -/
def TrueOf (p : Problem α) : SolverError α → Prop
  | problem e => e.TrueOf p
  | unsupported kind => p.kind = kind ∧ kind.isQuadratic = true
  | closed | engine _ _ => True

def IsTrue (e : SolverError α) : Prop :=
  ∀ p, e.TrueOf p

theorem isTrue_closed : (closed : SolverError α).IsTrue := fun _ => trivial

end SolverError

open SolverError

theorem Backend.BuiltIn.run_failure [Numeral α] {B : Backend α} (hB : B.BuiltIn) (m : Model α)
    (memory : B.Memory) {f : Failure (SolverError α)} (h : (B.run m memory).1 = .error f) :
    f.Satisfies IsTrue := by
  cases hB with
  | embedded engine =>
    change Embedded.run engine m = .error f at h
    rw [Embedded.run] at h
    split at h
    · cases h
    · split at h <;> cases h
      trivial
  | ranged takes engine options =>
    change Ranged.run takes engine options m = .error f at h
    rw [Ranged.run] at h
    split at h <;> cases h
    trivial
  | searched engine parameters =>
    change Searched.run engine parameters m = .error f at h
    rw [Searched.run] at h
    split at h <;> cases h
    trivial
  | written solver =>
    change (Written.run solver m memory).1 = .error f at h
    cases hinput : Written.input? m with
    | none =>
      simp only [Written.run, hinput] at h
      cases h
      trivial
    | some input =>
      simp only [Written.run, hinput] at h
      split at h <;> cases h
      exact fun _ => trivial

namespace Session

variable {B : Backend α}

theorem honest_change? (f : Model α → Option (Model α)) :
    (change? f : SessionCall B Unit).Honest IsTrue :=
  Call.honest_modify? _

theorem honest_setAllBounds (bounds : List (Interval α)) :
    (Binding.setAllBounds bounds : SessionCall B Unit).Honest IsTrue :=
  Call.ends_forM fun _ _ => honest_change? _

variable [Numeral α] (hB : B.BuiltIn)

include hB

theorem honest_optimize : (optimize : SessionCall B B.Code).Honest IsTrue := by
  refine Call.honest_state_bind fun s => ?_
  refine Call.honest_bind (Call.ends_require fun _ => isTrue_closed) fun _ => ?_
  refine Call.honest_bind (Call.ends_emit _) fun _ => ?_
  have hrun (f : Failure (SolverError α)) (hf : (B.run s.model s.memory).1 = .error f) :
      f.Satisfies IsTrue := hB.run_failure s.model s.memory hf
  generalize B.run s.model s.memory = ran at hrun ⊢
  obtain ⟨result, memory⟩ := ran
  refine Call.honest_bind (Call.honest_modify _) fun _ => ?_
  refine Call.honest_bind (Call.ends_ofResult hrun) fun outcome => ?_
  refine Call.honest_bind (Call.ends_emit _) fun _ => ?_
  exact Call.honest_bind (Call.honest_modify _) fun _ => Call.ends_pure trivial

theorem honest_solve : (solve : SessionCall B (Solution α)).Honest IsTrue :=
  Call.honest_bind (honest_optimize hB) fun _ =>
    Call.honest_state_bind fun _ => Call.ends_pure trivial

end Session

namespace Binding

variable {B : Backend α} {β : Type}

theorem honest_onSession {c : SessionCall B β} (hc : c.Honest IsTrue) :
    (onSession c).Honest IsTrue :=
  Call.honest_on hc fun _ he => he

theorem honest_onProblem {c : ProblemCall α β} (hc : c.Honest ProblemError.IsTrue) :
    (onProblem c : BindingCall B β).Honest IsTrue :=
  Call.honest_on hc fun _ he => he

theorem honest_checkLength (part : Part) (found : Nat) :
    (checkLength part found : BindingCall B Unit).Honest IsTrue := by
  refine Call.honest_state_bind fun b => Call.ends_require fun h => ?_
  have hne : found ≠ b.numCols := by simpa using h
  exact fun _ => hne

theorem honest_changeObjective (objective : List α) :
    (changeObjective objective : BindingCall B Unit).Honest IsTrue :=
  Call.honest_bind (honest_checkLength _ _) fun _ =>
    Call.honest_bind (honest_onSession (Call.honest_modify _)) fun _ =>
      honest_onProblem (Call.honest_modify _)

theorem honest_changeKinds (kinds : List ColumnKind) :
    (changeKinds kinds : BindingCall B Unit).Honest IsTrue := by
  have hboth : (do
      onSession (Session.changeKinds kinds)
      onProblem (Call.modify (·.withKinds kinds)) : BindingCall B Unit).Honest IsTrue :=
    Call.honest_bind (honest_onSession (Call.honest_modify _)) fun _ =>
      honest_onProblem (Call.honest_modify _)
  refine Call.honest_bind (honest_checkLength _ _) fun _ => ?_
  dsimp only
  split
  · exact Call.honest_bind (honest_onProblem (Call.honest_modify _)) fun _ => hboth
  · exact hboth

theorem honest_close : (close : BindingCall B Unit).Honest IsTrue := by
  refine Call.honest_state_bind fun b => ?_
  split
  · exact Call.ends_pure trivial
  · exact Call.honest_bind (honest_onSession (Call.honest_modify _)) fun _ => Call.ends_emit _

theorem honest_checkColumns (c : Constraint α) (columns : Nat) :
    (Call.ofExcept ((c.checkColumns columns).mapError .problem) : BindingCall B Unit).Honest
      IsTrue := by
  refine Call.ends_ofExcept fun e he => ?_
  cases hc : c.checkColumns columns with
  | ok u => simp [hc] at he
  | error e' =>
    rw [hc] at he
    cases he
    exact Constraint.checkColumns_isTrue hc

theorem honest_addConstraint (c : Constraint α) (scope : RowScope) :
    (addConstraint c scope : BindingCall B Unit).Honest IsTrue := by
  refine Call.honest_state_bind fun b => Call.honest_bind (honest_checkColumns c _) fun _ => ?_
  have hsession : (do
      onSession (Session.addRow c)
      Call.modify fun b => { b with shared := b.shared ++ [scope == .both] }
      let b ← Call.state
      Call.emit (.rowAdded b.name (← Call.ofOption (less? b.numRows 1)) scope) :
        BindingCall B Unit).Honest IsTrue :=
    Call.honest_bind (honest_onSession (Call.honest_modify _)) fun _ =>
      Call.honest_bind (Call.honest_modify _) fun _ => Call.honest_state_bind fun _ =>
        Call.honest_bind (Call.honest_ofOption _) fun _ => Call.ends_emit _
  dsimp only
  split
  · exact Call.honest_bind (honest_onProblem (Problem.honest_addConstraint c)) fun _ => hsession
  · exact hsession

theorem honest_addConstraints (cs : List (Constraint α)) (scope : RowScope) :
    (addConstraints cs scope : BindingCall B Unit).Honest IsTrue :=
  Call.honest_state_bind fun _ =>
    Call.honest_bind (Call.ends_forM fun c _ => honest_checkColumns c _) fun _ =>
      Call.ends_forM fun c _ => honest_addConstraint c scope

theorem honest_addComparison (first : Nat) (sense : Sense) (second : Nat) (scope : RowScope) :
    (addComparison first sense second scope : BindingCall B Bool).Honest IsTrue := by
  rw [addComparison]
  split
  · exact Call.honest_bind (honest_addConstraint _ _) fun _ => Call.ends_pure trivial
  · exact Call.ends_pure trivial

theorem honest_removeLast (n : Nat) : (removeLast n : BindingCall B Unit).Honest IsTrue := by
  refine Call.honest_state_bind fun b => ?_
  refine Call.honest_bind (Call.ends_require fun h => ?_) fun _ => ?_
  · exact ProblemError.isTrue_tooFewRows (by simpa using h)
  · refine Call.honest_bind (Call.honest_ofOption _) fun start => ?_
    refine Call.honest_bind (honest_onProblem (Problem.honest_removeLast _)) fun _ => ?_
    refine Call.honest_bind (honest_onSession (Session.honest_change? _)) fun _ => ?_
    exact Call.honest_bind (Call.honest_modify _) fun _ => Call.ends_emit _

theorem honest_onProblemRow (row : Nat) {change : Nat → ProblemCall α Unit}
    (h : ∀ r, (change r).Honest ProblemError.IsTrue) :
    (onProblemRow row change : BindingCall B Unit).Honest IsTrue := by
  refine Call.honest_state_bind fun b => Call.honest_bind (Call.honest_ofOption _) fun r => ?_
  cases r with
  | some r => exact honest_onProblem (h r)
  | none => exact Call.ends_pure trivial

theorem honest_changeCoefficients (changes : List (Nat × Nat × α)) :
    (changeCoefficients changes : BindingCall B Unit).Honest IsTrue := by
  refine Call.honest_state_bind fun b => ?_
  dsimp only
  split
  · rename_i row column value hfind
    have hout : b.numRows ≤ row ∨ b.numCols ≤ column := by simpa using List.find?_some hfind
    exact Call.ends_fail fun _ => hout
  · refine Call.honest_bind (Call.ends_forM fun c _ => honest_onProblemRow _ fun r => ?_) fun _ =>
      honest_onSession (Session.honest_change? _)
    exact Problem.honest_onMatrix (SparseMatrix.honest_set r _ _)

/-- The right-hand sides of a problem tell of their place in the matrix; that there are as many of
them as rows is what makes this true of an aligned binding. -/
theorem changeRhs_isTrue {b : Binding B} (h : b.Aligned) {changes : List (Nat × α)}
    {e : SolverError α} (he : (changeRhs changes b).result = .error (.error e)) : e.IsTrue := by
  by_cases hc : ∀ c ∈ changes, c.1 < b.shared.length
  · obtain ⟨p, hcall, -⟩ := changeRhs_apply h hc
    rw [hcall] at he
    cases he
  · cases hfind : changes.find? fun c => b.numRows ≤ c.1 with
    | none => exact absurd (find?_rhs_eq_none.1 hfind) hc
    | some c =>
      simp only [changeRhs, Call.state_bind, hfind] at he
      cases he
      have hout : b.numRows ≤ c.1 := by simpa using List.find?_some hfind
      exact fun _ => .inl hout

section Probes

variable [Numeral α] (hB : B.BuiltIn)

include hB

theorem honest_solveWith (objective : List α) :
    (solveWith objective : BindingCall B (Solution α)).Honest IsTrue := by
  refine Call.honest_bind (honest_checkLength _ _) fun _ => Call.honest_state_bind fun b => ?_
  refine honest_onSession (Call.ends_thenAlways ?_ (Call.honest_modify _))
  exact Call.honest_bind (Call.honest_modify _) fun _ => Session.honest_solve hB

theorem honest_solveMaybeWith (objective : Option (List α)) :
    (solveMaybeWith objective : BindingCall B (Solution α)).Honest IsTrue := by
  cases objective with
  | some objective => exact honest_solveWith hB objective
  | none => exact honest_onSession (Session.honest_solve hB)

theorem honest_testConstraint (c : Constraint α) (objective : Option (List α)) :
    (testConstraint c objective : BindingCall B (Solution α)).Honest IsTrue := by
  refine Call.honest_bind (honest_addConstraint c _) fun _ => ?_
  refine Call.ends_bind (Call.ends_attempt (honest_solveMaybeWith hB objective)) fun r hr => ?_
  exact Call.honest_bind (honest_removeLast 1) fun _ => Call.ends_ofExcept hr

theorem honest_isFeasible (x : List α) : (isFeasible x : BindingCall B Bool).Honest IsTrue := by
  refine Call.honest_bind (honest_checkLength _ _) fun _ => Call.honest_state_bind fun b => ?_
  refine Call.honest_bind (Call.honest_ofOption _) fun outside => ?_
  cases outside with
  | some column => exact Call.honest_bind (Call.ends_emit _) fun _ => Call.ends_pure trivial
  | none =>
    have hrun : (do
        setAllBounds (x.map fun v => (v, v))
        let code ← Session.optimize
        Call.emit (.pointTried b.name (B.codeName code))
        return code : SessionCall B B.Code).Honest IsTrue :=
      Call.honest_bind (Session.honest_setAllBounds _) fun _ =>
        Call.honest_bind (Session.honest_optimize hB) fun _ =>
          Call.honest_bind (Call.ends_emit _) fun _ => Call.ends_pure trivial
    exact Call.honest_bind
      (honest_onSession (Call.ends_thenAlways hrun (Session.honest_setAllBounds _))) fun _ =>
        Call.ends_pure trivial

end Probes

end Binding

theorem Probe.honest_call [Numeral α] {B : Backend α} (hB : B.BuiltIn) (p : Probe α) :
    (p.call : BindingCall B (Answer α)).Honest IsTrue := by
  obtain ⟨-, hcall⟩ | ⟨x, rfl⟩ := p.call_cases (B := B)
  · rw [hcall]
    refine Call.honest_bind ?_ fun _ => Call.ends_pure trivial
    rw [solution]
    cases p.row? with
    | none => exact Binding.honest_solveMaybeWith hB p.override?
    | some c => exact Binding.honest_testConstraint hB c p.override?
  · exact Call.honest_bind (Binding.honest_isFeasible hB x) fun _ => Call.ends_pure trivial

open Binding in
theorem Command.error_isTrue [Numeral α] {B : Backend α} (hB : B.BuiltIn) {b : Binding B}
    (h : b.Aligned) {c : Command α} {e : SolverError α}
    (he : (c.call b).result = .error (.error e)) : e.IsTrue := by
  have hdone {β : Type} {call : BindingCall B β} (hcall : call.Honest IsTrue) (g : β → Answer α) :
      (call >>= fun x => pure (g x)).Honest IsTrue :=
    Call.honest_bind hcall fun _ => Call.ends_pure trivial
  cases c with
  | probe p => exact (p.honest_call hB).error he
  | changeObjective objective => exact (hdone (honest_changeObjective objective) _).error he
  | changeKinds kinds => exact (hdone (honest_changeKinds kinds) _).error he
  | addConstraint c scope => exact (hdone (honest_addConstraint c scope) _).error he
  | addConstraints cs scope => exact (hdone (honest_addConstraints cs scope) _).error he
  | addComparison first sense second scope =>
    exact (hdone (honest_addComparison first sense second scope) _).error he
  | addBound index sense value scope => exact (hdone (honest_addConstraint _ scope) _).error he
  | removeLast n => exact (hdone (honest_removeLast n) _).error he
  | changeCoefficients changes => exact (hdone (honest_changeCoefficients changes) _).error he
  | changeRhs changes =>
    rw [call, Call.bind_pure_apply] at he
    cases hr : (Binding.changeRhs changes b).result with
    | ok u => simp [hr, Except.map] at he
    | error f =>
      rw [hr] at he
      cases he
      exact changeRhs_isTrue h hr
  | close => exact (hdone honest_close _).error he
  | rename name => cases he

namespace Binding

variable {B : Backend α}

theorem bind_trueOf {σ : Type} {memory : B.Memory} {p : Problem α} {s : σ} {e : SolverError α}
    (he : (bind B memory p s).result = .error (.error e)) : e.TrueOf p := by
  cases hv : p.validate with
  | error e' =>
    simp only [bind, hv, Call.mapError_error, Call.ofExcept_error, Call.fail_bind] at he
    cases he
    exact Problem.validate_trueOf hv
  | ok u =>
    cases hk : p.kind.isQuadratic with
    | true =>
      simp [bind, hv, Session.bind, hk] at he
      subst he
      exact ⟨rfl, hk⟩
    | false =>
      obtain ⟨-, ⟨rows, hrows⟩, -⟩ := Problem.validate_eq_ok.1 hv
      rw [bind_apply memory hv hk hrows s] at he
      cases he

theorem honest_bind {σ : Type} (memory : B.Memory) (p : Problem α) :
    (bind B memory p : Call (Event α) (SolverError α) σ (Binding B)).Honest (·.TrueOf p) :=
  Call.honest_of_error fun _ _ => bind_trueOf

end Binding

end LinProg
