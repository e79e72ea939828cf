import LinProg.Proofs.Binding.Runs
import LinProg.Proofs.Session.Answer

namespace LinProg

variable {α : Type} [Scalar α]

namespace Binding

variable {B : Backend α} {b b' : Binding B}

/-- What a solve of a model would answer, with another objective if one is given. -/
def answer (b : Binding B) (m : Model α) :
    Option (List α) → Except (Failure (SolverError α)) (Solution α)
  | none => b.session.answer m
  | some objective =>
    if objective.length = b.problem.columns then b.session.answer (m.withObjective objective)
    else .error (.error (.problem (.length .objective b.problem.columns objective.length)))

def answerWithRow (b : Binding B) (c : Constraint α) (objective : Option (List α)) :
    Except (Failure (SolverError α)) (Solution α) :=
  match c.checkColumns b.problem.columns with
  | .ok _ => b.answer (b.session.model.addRow c) objective
  | .error e => .error (.error (.problem e))

omit [Scalar α] in
theorem result_onSession {β : Type} (c : SessionCall B β) (b : Binding B) :
    (onSession c b).result = (c b.session).result :=
  congrArg Reply.result (onSession_apply rfl)

theorem result_solve (b : Binding B) : (solve b).result = b.answer b.session.model none := by
  rw [solve, result_onSession, Session.result_solve]
  rfl

theorem result_solveWith (b : Binding B) (objective : List α) :
    (solveWith objective b).result = b.answer b.session.model (some objective) := by
  by_cases ho : objective.length = b.problem.columns
  · rw [solveWith, Call.bind_of_ok (checkLength_apply _ ho), answer, if_pos ho]
    simp only [Call.state_bind]
    rw [result_onSession, Session.result_solveFor]
  · rw [solveWith, Call.bind_of_error (checkLength_refused _ ho), answer, if_neg ho]

theorem result_solveMaybeWith (b : Binding B) (objective : Option (List α)) :
    (solveMaybeWith objective b).result = b.answer b.session.model objective := by
  cases objective with
  | none => exact result_solve b
  | some objective => exact result_solveWith b objective

theorem result_changeObjective_solve (b : Binding B) (objective : List α) :
    ((do
      changeObjective objective
      solve) b).result = b.answer b.session.model (some objective) := by
  by_cases ho : objective.length = b.problem.columns
  · rw [Call.bind_of_ok (changeObjective_apply ho), answer, if_pos ho]
    exact result_solve (b.withObjective objective)
  · have hrefused : changeObjective objective b =
        ⟨.error (.error (.problem (.length .objective b.problem.columns objective.length))), b,
          []⟩ :=
      Call.bind_of_error (checkLength_refused _ ho) _
    rw [Call.bind_of_error hrefused, answer, if_neg ho]

theorem answer_withConstraint (b : Binding B) (scope : RowScope) (c : Constraint α) :
    (b.withConstraint scope c).answer = b.answer := by
  have hcolumns : (b.withConstraint scope c).problem.columns = b.problem.columns :=
    columns_withConstraints b scope [c]
  funext m objective
  cases objective with
  | none => rfl
  | some objective =>
    rw [answer, answer, hcolumns]
    rfl

theorem result_solve_withConstraint (b : Binding B) (scope : RowScope) {c : Constraint α}
    (hc : c.checkColumns b.problem.columns = .ok ()) (objective : Option (List α)) :
    (solveMaybeWith objective (b.withConstraint scope c)).result = b.answerWithRow c objective := by
  rw [result_solveMaybeWith, answer_withConstraint, answerWithRow, hc]
  rfl

theorem result_testConstraint (h : b.Aligned) (c : Constraint α) (objective : Option (List α)) :
    (testConstraint c objective b).result = b.answerWithRow c objective := by
  cases hc : c.checkColumns b.problem.columns with
  | error e =>
    rw [testConstraint, Call.bind_of_error (addConstraint_refused hc .sessionOnly),
      answerWithRow, hc]
  | ok u =>
    rw [testConstraint, Call.bind_of_ok (addConstraint_sessionOnly_apply hc)]
    have hremoved := congrArg Reply.result (removeLast_probed h c objective)
    rw [← result_solve_withConstraint b .sessionOnly hc]
    exact Call.result_attempt_bind hremoved

theorem result_addConstraint_solve (h : b.Aligned) (c : Constraint α) (scope : RowScope)
    (objective : Option (List α)) :
    ((do
      addConstraint c scope
      solveMaybeWith objective) b).result = b.answerWithRow c objective := by
  cases hc : c.checkColumns b.problem.columns with
  | error e => rw [Call.bind_of_error (addConstraint_refused hc scope), answerWithRow, hc]
  | ok u =>
    obtain ⟨es, hes⟩ := addConstraint_apply h scope hc
    rw [Call.bind_of_ok hes]
    exact result_solve_withConstraint b scope hc objective

theorem answer_eq_ok {m : Model α} {objective : Option (List α)} {s : Solution α}
    (hs : b.answer m objective = .ok s) : b.session.answer (m.withOverride objective) = .ok s ∧
      ∀ o ∈ objective, o.length = b.problem.columns := by
  cases objective with
  | none => exact ⟨hs, by simp⟩
  | some objective =>
    rw [answer] at hs
    split at hs
    · rename_i ho
      exact ⟨hs, by simpa using ho⟩
    · cases hs

theorem answerWithRow_eq_ok {c : Constraint α} {objective : Option (List α)} {s : Solution α}
    (hs : b.answerWithRow c objective = .ok s) :
    b.session.answer ((b.session.model.addRow c).withOverride objective) = .ok s ∧
      (∀ o ∈ objective, o.length = b.problem.columns) ∧
      ∀ t ∈ c.terms, t.1 < b.problem.columns := by
  rw [answerWithRow] at hs
  split at hs
  · rename_i hc
    obtain ⟨hanswer, ho⟩ := answer_eq_ok hs
    exact ⟨hanswer, ho, Constraint.checkColumns_eq_ok.1 hc⟩
  · cases hs

theorem answer_congr (hB : B.Memoryless) (hb : b.Unmoved b') : b'.answer = b.answer := by
  have hsession := Session.answer_congr hB hb.session.closed
  funext m objective
  cases objective with
  | none => rw [answer, answer, hsession]
  | some objective => rw [answer, answer, hsession, hb.problem]

theorem answerWithRow_congr (hB : B.Memoryless) (hb : b.Unmoved b') :
    b'.answerWithRow = b.answerWithRow := by
  funext c objective
  rw [answerWithRow, answerWithRow, answer_congr hB hb, hb.problem, hb.session.model]

theorem testConstraint_answers_as_change (hB : B.Memoryless) (h : b.Aligned) (hb : b.Unmoved b')
    (c : Constraint α) (scope : RowScope) (objective : Option (List α)) :
    (testConstraint c objective b).result =
      ((do
        addConstraint c scope
        solveMaybeWith objective) b').result := by
  rw [result_testConstraint h, result_addConstraint_solve (h.of_unmoved hb),
    answerWithRow_congr hB hb]

theorem solveMaybeWith_answers_as_copy (hB : B.Memoryless) (hb : b.Unmoved b')
    (objective : Option (List α)) :
    (solveMaybeWith objective b).result = (solveMaybeWith objective b').result := by
  rw [result_solveMaybeWith, result_solveMaybeWith, answer_congr hB hb, hb.session.model]

/-- A probe answers, with a solution or an error, what a copy of the binding does on which the
change is made to last and which is solved then. A column compared with itself changes nothing. -/
theorem probes_answer_as_changes (hB : B.Memoryless) (h : b.Reachable) (hb : b.Unmoved b') :
    (∀ objective, (solveWith objective b).result =
      ((do
        changeObjective objective
        solve) b').result) ∧
    (∀ c scope objective, (testConstraint c objective b).result =
      ((do
        addConstraint c scope
        solveMaybeWith objective) b').result) ∧
    (∀ index sense value scope objective, (testBound index sense value objective b).result =
      ((do
        addBound index sense value scope
        solveMaybeWith objective) b').result) ∧
    (∀ first sense second scope objective,
      (testComparison first sense second objective b).result =
        ((do
          let _ ← addComparison first sense second scope
          solveMaybeWith objective) b').result) ∧
    ∀ column sense objective, (testComparison column sense column objective b).result =
      (solveMaybeWith objective b').result := by
  have hrow := testConstraint_answers_as_change hB h.aligned hb
  have hsame := solveMaybeWith_answers_as_copy hB hb
  refine ⟨fun objective => ?_, hrow, fun index sense value => hrow (.bound index sense value),
    fun first sense second scope objective => ?_, fun column sense objective => ?_⟩
  · rw [result_solveWith, result_changeObjective_solve, answer_congr hB hb, hb.session.model]
  · cases hc : (Constraint.comparison first sense second : Option (Constraint α)) with
    | none =>
      simp only [testComparison, addComparison, hc]
      exact hsame objective
    | some c =>
      simp only [testComparison, addComparison, hc]
      rw [Call.bind_assoc]
      exact hrow c scope objective
  · have hnone : (Constraint.comparison column sense column : Option (Constraint α)) = none :=
      if_pos rfl
    simp only [testComparison, hnone]
    exact hsame objective

end Binding

omit [Scalar α] in
theorem Probe.result_of_solved {B : Backend α} {b : Binding B} {c : BindingCall B (Solution α)}
    {s : Solution α} (hs : ((do return Answer.solved (← c)) b).result = .ok (.solved s)) :
    (c b).result = .ok s := by
  rw [Call.bind_pure_apply] at hs
  cases hr : (c b).result with
  | ok t => simpa [hr, Except.map] using hs
  | error f => simp [hr, Except.map] at hs

open Binding in
theorem Probe.answer_of_solved {B : Backend α} {b : Binding B} (h : b.Aligned) (p : Probe α)
    {s : Solution α} (hs : (p.call b).result = .ok (.solved s)) :
    b.session.answer (p.model b.session.model) = .ok s ∧ p.Allowed b := by
  obtain ⟨hpoint, hcall⟩ | ⟨x, rfl⟩ := p.call_cases (B := B)
  · rw [hcall] at hs
    have hs' := result_of_solved hs
    rw [model, hpoint]
    cases hrow : p.row? with
    | none =>
      rw [solution, hrow, result_solveMaybeWith] at hs'
      obtain ⟨hanswer, ho⟩ := answer_eq_ok hs'
      exact ⟨hanswer, ho, by simp [hrow], by simp [hpoint]⟩
    | some c =>
      rw [solution, hrow, result_testConstraint h] at hs'
      obtain ⟨hanswer, ho, hc⟩ := answerWithRow_eq_ok hs'
      exact ⟨hanswer, ho, by simpa [hrow] using hc, by simp [hpoint]⟩
  · rw [call, Call.bind_pure_apply] at hs
    cases hr : (Binding.isFeasible x b).result <;> simp [hr, Except.map] at hs

namespace Binding

def costly : Backend Extended :=
  embedded fun input => .solved (input.columns.map (·.cost))

def costlyRow : Binding costly :=
  ((Command.addBound 0 .lessEq 1 .both).call (loaded costly () oneColumn [])).state

theorem costlyRow_reachable : costlyRow.Reachable := by
  have hbind : (bind costly () oneColumn ()).result = .ok (loaded costly () oneColumn []) := rfl
  exact (Reachable.bound hbind).call _

theorem costlyRow_answers_as_changes :
    let copy := ((Command.probe .solve).call costlyRow).state
    costly.Memoryless ∧ costlyRow.Reachable ∧ costlyRow.Unmoved copy ∧
      ((testBound 0 .lessEq 0 (some [-1]) costlyRow).result.toOption.map
        fun s => (s.values, s.objective, s.feasible)) = some ([-1], 1, true) ∧
      (testBound 0 .lessEq 0 (some [-1]) costlyRow).result =
        ((do
          addBound 0 .lessEq 0 .both
          solveMaybeWith (some [-1])) copy).result ∧
      (testBound 0 .lessEq 0 (some [-1, 1]) costlyRow).result =
        ((do
          addBound 0 .lessEq 0 .sessionOnly
          solveMaybeWith (some [-1, 1])) copy).result := by
  intro copy
  have hB : costly.Memoryless := fun _ _ _ => rfl
  have hcopy : costlyRow.Unmoved copy := Probe.solve.call_unmoved costlyRow_reachable.aligned
    (Reply.returned_of_isOk (by decide +kernel))
  obtain ⟨-, -, hbound, -, -⟩ := probes_answer_as_changes hB costlyRow_reachable hcopy
  exact ⟨hB, costlyRow_reachable, hcopy, by decide +kernel, hbound _ _ _ _ _, hbound _ _ _ _ _⟩

end Binding

end LinProg
