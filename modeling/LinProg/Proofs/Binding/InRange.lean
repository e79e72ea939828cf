import LinProg.Proofs.Backend.InRange
import LinProg.Proofs.Binding.Atomic
import LinProg.Proofs.Binding.Canonical
import LinProg.Proofs.Problem.InRange

/-!
Calls that miss no place. Each term of a binding has a column, on both sides and after every call,
so that neither the binding nor the backend looks anything up where nothing is. What a call checks
before it starts is enough for everything that it does then.
-/

namespace LinProg

variable {α : Type} [Scalar α]

namespace Binding

variable {B : Backend α} {b b' : Binding B}

structure Fitted (b : Binding B) : Prop extends b.Aligned where
  terms : ∀ r ∈ b.session.model.rows, ∀ t ∈ r.terms, t.1 < b.problem.columns

namespace Fitted

theorem wellFormed (h : b.Fitted) : b.session.model.WellFormed :=
  ⟨h.bounded.toColumnsFit, fun r hr t ht => h.numCols.symm ▸ h.terms r hr t ht⟩

theorem problem_wellFormed (h : b.Fitted) : b.problem.WellFormed := by
  refine ⟨h.frame.toColumnsFit, ⟨_, h.rows⟩, fun row hrow => ?_⟩
  rw [← h.rows.terms] at hrow
  obtain ⟨r, hr, rfl⟩ := List.mem_map.1 hrow
  exact h.terms r (mem_of_mem_chosen hr)

end Fitted

theorem Canonical.fitted (h : b.Canonical) : b.Fitted :=
  ⟨h.toAligned, fun r hr => (h.terms r hr).bound⟩

theorem Step.fitted {rs : List (NewRow α)} (hs : b.Step rs b') (h : b.Fitted) : b'.Fitted := by
  refine ⟨hs.aligned h.toAligned, ?_⟩
  rw [hs.columns]
  refine hs.forall_terms (P := fun row => ∀ t ∈ row, t.1 < b.problem.columns)
    (fun _ ht => (SparseRow.fits_ofTerms ht).bound) ?_ h.terms
  intro row column value hrow hc t ht
  obtain rfl | ht := SparseRow.mem_set ht
  · exact hc
  · exact hrow t ht

theorem Fitted.withConstraint (h : b.Fitted) (scope : RowScope) {c : Constraint α}
    (hc : ∀ t ∈ c.terms, t.1 < b.problem.columns) : (b.withConstraint scope c).Fitted :=
  (Step.appended scope (List.forall_mem_singleton.2 hc)).fitted h

theorem fitted_of_bind {σ : Type} {memory : B.Memory} {p : Problem α} {s : σ} {b : Binding B}
    (hm : p.MatrixFits) (h : (bind B memory p s).result = .ok b) : b.Fitted :=
  (canonical_of_bind hm h).fitted

theorem Fitted.after (h : b.Fitted) (cs : List (Command α)) : (b.after cs).Fitted :=
  keeps_after (fun _ c h => (c.step h.toAligned).fitted h) h cs

theorem bind_inRange {σ : Type} (memory : B.Memory) (p : Problem α) (s : σ) :
    (bind B memory p s).InRange := by
  cases hv : p.validate with
  | error e => simp [Reply.InRange, bind, hv]
  | ok u =>
    cases hk : p.kind.isQuadratic with
    | true => simp [Reply.InRange, bind, hv, Session.bind, hk]
    | false =>
      obtain ⟨-, ⟨rows, hrows⟩, -⟩ := Problem.validate_eq_ok.1 hv
      exact Call.inRange_of_ok (bind_apply memory hv hk hrows s)

structure Readable [Numeral α] (b : Binding B) : Prop where
  text : b.text?.isSome
  problem : b.problem.Readable
  translated : b.session.model.Translated

theorem Fitted.readable [Numeral α] (h : b.Fitted) : b.Readable where
  text := by
    rw [text?, Option.isSome_map]
    exact h.problem_wellFormed.readable.text
  problem := h.problem_wellFormed.readable
  translated := h.wellFormed.translated

/-- What the calls do on the problem once they have made their own checks goes through, and so does
the removal of the row of a probe. -/
structure ChecksSuffice (b : Binding B) : Prop where
  row : ∀ c : Constraint α, c.checkColumns b.numCols = .ok () →
    (Problem.addConstraint c b.problem).result = .ok ()
  rows : ∀ (cs : List (Constraint α)) (scope : RowScope),
    (∀ c ∈ cs, c.checkColumns b.numCols = .ok ()) →
    (cs.forM (addConstraint · scope) b).result = .ok ()
  removal : ∀ n ≤ b.numRows,
    (Problem.removeLast ((b.shared.drop (b.numRows - n)).count true) b.problem).result = .ok ()
  coefficients : ∀ changes : List (Nat × Nat × α),
    (∀ c ∈ changes, c.1 < b.numRows ∧ c.2.1 < b.numCols) →
    ((changes.forM fun (row, column, value) =>
      onProblemRow row fun r => Problem.setCoefficient r column value : BindingCall B Unit)
      b).result = .ok ()
  rhs : ∀ changes : List (Nat × α), (∀ c ∈ changes, c.1 < b.numRows) →
    ((changes.forM fun (row, value) =>
      onProblemRow row fun r => Problem.setRowRhs r value : BindingCall B Unit) b).result = .ok ()
  probe : ∀ (c : Constraint α) (objective : Option (List α)),
    (addConstraint c .sessionOnly b).result = .ok () →
    (removeLast 1
      (solveMaybeWith objective (addConstraint c .sessionOnly b).state).state).result = .ok ()

theorem Aligned.checksSuffice (h : b.Aligned) : b.ChecksSuffice where
  row c hc := by rw [Problem.addConstraint_apply h.frame.matrix hc]
  rows cs scope hcs := by
    obtain ⟨es, hcall⟩ := forM_addConstraint h scope hcs
    rw [hcall]
  removal n hn := by
    have hk : (b.shared.drop (b.numRows - n)).count true ≤ b.problem.numRows := by
      rw [h.numRows]
      exact (List.drop_sublist _ b.shared).count_le true
    rw [Problem.removeLast_apply hk]
  coefficients changes hc := by
    have hwrites : ∀ w ∈ changes.map Model.termWrite,
        w.1 < b.session.model.rows.length ∧ w.2.Fits b.problem.columns := by
      rw [List.forall_mem_map, ← h.shared]
      exact hc
    obtain ⟨p, hcall, -⟩ := forM_writeOnProblem h.frame.toColumnsFit h.rows h.shared hwrites
    rw [Call.forM_map] at hcall
    exact congrArg Reply.result hcall
  rhs changes hc := by
    have hwrites : ∀ w ∈ changes.map Model.rhsWrite,
        w.1 < b.session.model.rows.length ∧ w.2.Fits b.problem.columns := by
      rw [List.forall_mem_map, ← h.shared]
      exact fun c hm => ⟨hc c hm, trivial⟩
    obtain ⟨p, hcall, -⟩ := forM_writeOnProblem h.frame.toColumnsFit h.rows h.shared hwrites
    rw [Call.forM_map] at hcall
    exact congrArg Reply.result hcall
  probe c objective hc := by
    cases hcheck : c.checkColumns b.problem.columns with
    | error e =>
      rw [addConstraint_refused hcheck] at hc
      cases hc
    | ok u =>
      rw [addConstraint_sessionOnly_apply hcheck, removeLast_probed h c objective]

end Binding

namespace Model.WellFormed

variable {m : Model α}

omit [Scalar α] in
theorem withObjective (h : m.WellFormed) {objective : List α}
    (ho : objective.length = m.numCols) : (m.withObjective objective).WellFormed :=
  ⟨h.toColumnsFit.withObjective ho, fun r hr t ht => Nat.lt_of_lt_of_eq (h.terms r hr t ht) ho.symm⟩

omit [Scalar α] in
theorem pinned (h : m.WellFormed) {x : List α} (hx : x.length = m.numCols) :
    (m.withBounds x x).WellFormed :=
  ⟨h.toColumnsFit.pinned hx, h.terms⟩

end Model.WellFormed

theorem Binding.isSome_firstOutside {column : Nat} {x lower upper : List α}
    (hl : x.length ≤ lower.length) (hu : x.length ≤ upper.length) :
    (firstOutside? column x lower upper).isSome := by
  induction x generalizing column lower upper with
  | nil => rfl
  | cons v x ih =>
    match lower, upper with
    | [], _ => simp at hl
    | _ :: _, [] => simp at hu
    | l :: lower, u :: upper =>
      rw [firstOutside?]
      split
      · exact ih (Nat.le_of_succ_le_succ hl) (Nat.le_of_succ_le_succ hu)
      · rfl

omit [Scalar α] in
theorem Binding.onSession_inRange {B : Backend α} {b : Binding B} {β : Type}
    {c : SessionCall B β} (h : (c b.session).InRange) : (onSession c b).InRange :=
  Call.inRange_on h id

section Run

variable [Numeral α] {B : Backend α} (hB : B.BuiltIn)

include hB

namespace Session

variable {s : Session B}

theorem optimize_inRange (h : s.model.WellFormed) : (optimize s).InRange := by
  have hin := hB.run_inRange h s.memory
  cases hclosed : s.closed with
  | true => exact Call.inRange_of_error (optimize_of_closed hclosed)
  | false =>
    rcases hrun : B.run s.model s.memory with ⟨result, memory⟩
    rw [hrun] at hin
    cases result with
    | ok o => exact Call.inRange_of_ok (optimize_of_run hclosed hrun)
    | error f =>
      rw [Reply.InRange, optimize_of_error hclosed hrun]
      simpa using hin

theorem solve_inRange (h : s.model.WellFormed) : (solve s).InRange := by
  refine Call.inRange_bind (optimize_inRange hB h) fun code _ => ?_
  rw [Call.state_bind]
  exact Call.inRange_of_ok (Call.pure_apply _ _)

theorem solveFor_inRange {objective : List α} (h : (s.model.withObjective objective).WellFormed)
    (previous : List α) :
    (Call.thenAlways
      (do
        changeObjective objective
        solve)
      (changeObjective previous) s).InRange := by
  refine Call.inRange_thenAlways ?_ (Call.inRange_of_ok (change_apply _ _))
  exact Call.inRange_bind (Call.inRange_of_ok (change_apply _ s)) fun _ _ => solve_inRange hB h

end Session

namespace Binding

variable {b : Binding B}

theorem solve_inRange (h : b.Fitted) : (solve b).InRange :=
  onSession_inRange (Session.solve_inRange hB h.wellFormed)

theorem solveWith_inRange (h : b.Fitted) (objective : List α) :
    (solveWith objective b).InRange := by
  by_cases ho : objective.length = b.problem.columns
  · have hmodel : (b.session.model.withObjective objective).WellFormed :=
      h.wellFormed.withObjective (ho.trans h.numCols.symm)
    rw [solveWith, Call.bind_of_ok (checkLength_apply _ ho), Call.state_bind]
    exact onSession_inRange (Session.solveFor_inRange hB hmodel b.session.model.objective)
  · exact Call.inRange_of_error (Call.bind_of_error (checkLength_refused _ ho) _)

theorem solveMaybeWith_inRange (h : b.Fitted) (objective : Option (List α)) :
    (solveMaybeWith objective b).InRange := by
  cases objective with
  | none => exact solve_inRange hB h
  | some objective => exact solveWith_inRange hB h objective

theorem testConstraint_inRange (h : b.Fitted) (c : Constraint α) (objective : Option (List α)) :
    (testConstraint c objective b).InRange := by
  cases hc : c.checkColumns b.problem.columns with
  | error e =>
    exact Call.inRange_of_error (Call.bind_of_error (addConstraint_refused hc .sessionOnly) _)
  | ok u =>
    have hadded := h.withConstraint .sessionOnly (Constraint.checkColumns_eq_ok.1 hc)
    have hrun := Call.inRange_attempt (solveMaybeWith_inRange hB hadded objective)
    rw [testConstraint, Call.bind_of_ok (addConstraint_sessionOnly_apply hc)]
    refine Call.inRange_bind hrun fun result _ => ?_
    rw [Call.attempt_state, Call.bind_of_ok (removeLast_probed h.toAligned c objective)]
    exact Call.inRange_ofExcept result _

theorem isFeasible_inRange (h : b.Fitted) (x : List α) : (isFeasible x b).InRange := by
  by_cases hx : x.length = b.problem.columns
  · rw [isFeasible, Call.bind_of_ok (checkLength_apply _ hx), Call.state_bind]
    have hwithin : (firstOutside? 0 x b.problem.lower b.problem.upper).isSome :=
      isSome_firstOutside (Nat.le_of_eq (hx.trans h.frame.lower.symm))
        (Nat.le_of_eq (hx.trans h.frame.upper.symm))
    obtain ⟨outside, ho⟩ := Option.isSome_iff_exists.1 hwithin
    rw [ho, Call.ofOption_some, Call.pure_bind]
    cases outside with
    | some column => exact Call.inRange_of_ok rfl
    | none =>
      have hl : b.session.model.lower.length = x.length := h.lower_length.trans hx.symm
      have hu : b.session.model.upper.length = x.length := h.upper_length.trans hx.symm
      obtain ⟨hlower, hupper⟩ := h.stored_bounds
      obtain ⟨s', hs', -, hrun⟩ := Session.pinnedRun_apply b.session b.name hl hu
      obtain ⟨s'', hback, -⟩ := Session.putBack_apply b.session b.name hl hu hlower hupper
      have hmodel : s'.model.WellFormed := by
        rw [hs'.model]
        exact h.wellFormed.pinned (hx.trans h.numCols.symm)
      have hpinned : (Session.pinnedRun b.name x b.session).InRange := by
        rw [hrun]
        exact Call.inRange_bind (Session.optimize_inRange hB hmodel) fun code _ =>
          Call.inRange_of_ok rfl
      exact Call.inRange_bind_pure
        (onSession_inRange (Call.inRange_thenAlways hpinned (Call.inRange_of_ok hback))) _
  · exact Call.inRange_of_error (Call.bind_of_error (checkLength_refused _ hx) _)

end Binding

open Binding in
theorem Probe.call_inRange {b : Binding B} (h : b.Fitted) (p : Probe α) : (p.call b).InRange := by
  obtain ⟨-, hcall⟩ | ⟨x, rfl⟩ := p.call_cases (B := B)
  · rw [hcall]
    refine Call.inRange_bind_pure ?_ _
    rw [solution]
    cases p.row? with
    | none => exact solveMaybeWith_inRange hB h p.override?
    | some c => exact testConstraint_inRange hB h c p.override?
  · exact Call.inRange_bind_pure (isFeasible_inRange hB h x) _

theorem Command.call_inRange {b : Binding B} (h : b.Fitted) (c : Command α) :
    (c.call b).InRange := by
  by_cases hc : ∃ p, c = .probe p
  · obtain ⟨p, rfl⟩ := hc
    exact p.call_inRange hB h
  · obtain ⟨-, a, b', es, hcall, -⟩ | ⟨-, e, hcall⟩ := c.settled h.toAligned (not_exists.1 hc)
    · exact Call.inRange_of_ok hcall
    · exact Call.inRange_of_error hcall

end Run

end LinProg
