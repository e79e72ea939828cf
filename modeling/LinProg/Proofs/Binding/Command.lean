import LinProg.Proofs.Binding.Probe

/-!
The calls on a binding as commands, and what one of them can do. A step is one of a few changes of
an aligned binding; it comes with the rows that the problem got by it.
-/

namespace LinProg

inductive Probe (α : Type) where
  | solve
  | solveWith (objective : List α)
  | solveMaybeWith (objective : Option (List α))
  | testConstraint (c : Constraint α) (objective : Option (List α))
  | testBound (index : Nat) (sense : Sense) (value : α) (objective : Option (List α))
  | testComparison (first : Nat) (sense : Sense) (second : Nat) (objective : Option (List α))
  | isFeasible (x : List α)

inductive Command (α : Type) where
  | probe (p : Probe α)
  | changeObjective (objective : List α)
  | changeKinds (kinds : List ColumnKind)
  | addConstraint (c : Constraint α) (scope : RowScope)
  | addConstraints (cs : List (Constraint α)) (scope : RowScope)
  | addComparison (first : Nat) (sense : Sense) (second : Nat) (scope : RowScope)
  | addBound (index : Nat) (sense : Sense) (value : α) (scope : RowScope)
  | removeLast (n : Nat)
  | changeCoefficients (changes : List (Nat × Nat × α))
  | changeRhs (changes : List (Nat × α))
  | close
  | rename (name : String)

inductive Answer (α : Type) where
  | done
  | added (isAdded : Bool)
  | solved (solution : Solution α)
  | feasible (isFeasible : Bool)

variable {α : Type} [Scalar α] {B : Backend α}

open Binding

def Probe.call : Probe α → BindingCall B (Answer α)
  | solve => do return .solved (← Binding.solve)
  | solveWith objective => do return .solved (← Binding.solveWith objective)
  | solveMaybeWith objective => do return .solved (← Binding.solveMaybeWith objective)
  | testConstraint c objective => do return .solved (← Binding.testConstraint c objective)
  | testBound index sense value objective => do
    return .solved (← Binding.testBound index sense value objective)
  | testComparison first sense second objective => do
    return .solved (← Binding.testComparison first sense second objective)
  | isFeasible x => do return .feasible (← Binding.isFeasible x)

namespace Command

def call : Command α → BindingCall B (Answer α)
  | probe p => p.call
  | changeObjective objective => do
    Binding.changeObjective objective
    return .done
  | changeKinds kinds => do
    Binding.changeKinds kinds
    return .done
  | addConstraint c scope => do
    Binding.addConstraint c scope
    return .done
  | addConstraints cs scope => do
    Binding.addConstraints cs scope
    return .done
  | addComparison first sense second scope => do
    return .added (← Binding.addComparison first sense second scope)
  | addBound index sense value scope => do
    Binding.addBound index sense value scope
    return .done
  | removeLast n => do
    Binding.removeLast n
    return .done
  | changeCoefficients changes => do
    Binding.changeCoefficients changes
    return .done
  | changeRhs changes => do
    Binding.changeRhs changes
    return .done
  | close => do
    Binding.close
    return .done
  | rename name => do
    Call.modify (·.rename name)
    return .done

/-- What a command asks for is there: columns, rows, and lists of the right lengths. -/
def Fits (b : Binding B) : Command α → Prop
  | changeObjective objective => objective.length = b.problem.columns
  | changeKinds kinds => kinds.length = b.problem.columns
  | addConstraint c _ => ∀ t ∈ c.terms, t.1 < b.problem.columns
  | addConstraints cs _ => ∀ c ∈ cs, ∀ t ∈ c.terms, t.1 < b.problem.columns
  | addComparison first _ second _ =>
    first ≠ second → first < b.problem.columns ∧ second < b.problem.columns
  | addBound index _ _ _ => index < b.problem.columns
  | removeLast n => n ≤ b.shared.length
  | changeCoefficients changes =>
    ∀ c ∈ changes, c.1 < b.shared.length ∧ c.2.1 < b.problem.columns
  | changeRhs changes => ∀ c ∈ changes, c.1 < b.shared.length
  | probe _ | close | rename _ => True

def constraints : Command α → List (Constraint α)
  | addConstraint c _ => [c]
  | addConstraints cs _ => cs
  | addComparison first sense second _ => (Constraint.comparison first sense second).toList
  | addBound index sense value _ => [.bound index sense value]
  | _ => []

def scope? : Command α → Option RowScope
  | addConstraint _ scope | addConstraints _ scope | addComparison _ _ _ scope
  | addBound _ _ _ scope => some scope
  | _ => none

def appended : Command α → List (NewRow α)
  | addConstraint c scope => scope.rows [c]
  | addConstraints cs scope => scope.rows cs
  | addComparison first sense second scope =>
    scope.rows (Constraint.comparison first sense second).toList
  | addBound index sense value scope => scope.rows [.bound index sense value]
  | probe _ | changeObjective _ | changeKinds _ | removeLast _ | changeCoefficients _
  | changeRhs _ | close | rename _ => []

def rowsAfter (rows : List (ModelRow α)) : Command α → List (ModelRow α)
  | removeLast n => rows.take (rows.length - n)
  | changeCoefficients changes => Model.writeRows (changes.map Model.termWrite) rows
  | changeRhs changes => Model.writeRows (changes.map Model.rhsWrite) rows
  | c => rows ++ c.constraints.map .ofConstraint

end Command

namespace Binding

/-- What a command can do to a binding. -/
inductive Step (b : Binding B) : List (NewRow α) → Binding B → Prop
  | unmoved {b' : Binding B} (h : b.Unmoved b') : Step b [] b'
  | objective {objective : List α} (h : objective.length = b.problem.columns) :
    Step b [] (b.withObjective objective)
  | kinds {kinds : List ColumnKind} (h : kinds.length = b.problem.columns) :
    Step b [] (b.withKinds kinds)
  | appended (scope : RowScope) {cs : List (Constraint α)}
    (h : ∀ c ∈ cs, ∀ t ∈ c.terms, t.1 < b.problem.columns) :
    Step b (scope.rows cs) (b.withConstraints scope cs)
  | removed (n : Nat) : Step b [] (b.withoutLast n)
  | written {p : Problem α} {writes : List (Nat × RowWrite α)} (hp : b.problem.Rewritten p)
    (hw : ∀ w ∈ writes, w.2.Fits b.problem.columns)
    (h : (b.withRows p (Model.writeRows writes b.session.model.rows) b.shared).Aligned) :
    Step b [] (b.withRows p (Model.writeRows writes b.session.model.rows) b.shared)
  | leftover {c : Constraint α} {b' : Binding B} (hc : ∀ t ∈ c.terms, t.1 < b.problem.columns)
    (h : (b.withConstraint .sessionOnly c).Unmoved b') : Step b [] b'
  | closed : Step b [] b.withClosed
  | renamed (name : String) : Step b [] (b.rename name)

namespace Step

variable {b b' : Binding B} {rs : List (NewRow α)}

theorem aligned (hs : b.Step rs b') (h : b.Aligned) : b'.Aligned := by
  cases hs with
  | unmoved hb => exact h.of_unmoved hb
  | objective ho => exact h.withObjective ho
  | kinds hk => exact h.withKinds hk
  | appended scope hcs => exact h.withConstraints scope _
  | removed n => exact h.withoutLast n
  | written hp hw hb => exact hb
  | leftover hc hb => exact (h.withConstraint _ _).of_unmoved hb
  | closed => exact ⟨h.frame, h.kind, h.rows, h.shared, h.model⟩
  | renamed name => exact ⟨h.frame, h.kind, h.rows, h.shared, h.model⟩

theorem columns (hs : b.Step rs b') : b'.problem.columns = b.problem.columns := by
  cases hs with
  | unmoved hb => rw [hb.problem]
  | appended scope hcs => exact columns_withConstraints b scope _
  | written hp hw hb => exact Problem.columns_of_frame hp.frame
  | leftover hc hb => exact congrArg Problem.columns hb.problem
  | kinds hk =>
    rw [withKinds, Problem.promoted]
    split <;> rfl
  | objective | removed | closed | renamed => rfl

/-- The terms of the rows afterwards: those of a list of terms, or those of a row from before into
which some coefficients may have been written. So whatever both keep is kept. -/
theorem forall_terms (hs : b.Step rs b') {P : SparseRow α → Prop}
    (hnew : ∀ terms : List (Nat × α), (∀ t ∈ terms, t.1 < b.problem.columns) → P (.ofTerms terms))
    (hset : ∀ (row : SparseRow α) (column : Nat) (value : α), P row → column < b.problem.columns →
      P (row.set column value))
    (h : ∀ r ∈ b.session.model.rows, P r.terms) : ∀ r ∈ b'.session.model.rows, P r.terms := by
  have happended (scope : RowScope) {cs : List (Constraint α)}
      (hcs : ∀ c ∈ cs, ∀ t ∈ c.terms, t.1 < b.problem.columns) :
      ∀ r ∈ (b.withConstraints scope cs).session.model.rows, P r.terms := by
    rw [rows_withConstraints, List.forall_mem_append, List.forall_mem_map]
    exact ⟨h, fun c hc => hnew c.terms (hcs c hc)⟩
  cases hs with
  | unmoved hb => rwa [hb.session.model]
  | appended scope hcs => exact happended scope hcs
  | removed n => exact fun r hr => h r (List.mem_of_mem_take hr)
  | @written p writes hp hw hb =>
    refine Model.forall_mem_writeRows h fun w hmem r hr => ?_
    obtain ⟨i, w⟩ := w
    cases w with
    | term column value => exact hset r.terms column value hr (hw _ hmem)
    | rhs value => exact hr
  | leftover hc hb =>
    -- The row of a probe that never came back was appended as any other.
    rw [hb.session.model]
    exact happended .sessionOnly (List.forall_mem_singleton.2 hc)
  | objective | kinds | closed | renamed => exact h

theorem rangesGiven (hs : b.Step rs b') (h : b.problem.RangesGiven) :
    b'.problem.RangesGiven ↔ ¬ (b.problem.ranges = none ∧ NewRow.Bare rs) := by
  have hnil : ¬ (b.problem.ranges = none ∧ NewRow.Bare ([] : List (NewRow α))) := by
    simp [NewRow.Bare]
  cases hs with
  | appended scope hcs =>
    rw [problem_withConstraints]
    exact h.pushRows _
  | unmoved hb => exact iff_of_true (hb.problem ▸ h) hnil
  | objective ho => exact iff_of_true h hnil
  | kinds hk =>
    refine iff_of_true ?_ hnil
    rw [withKinds, Problem.promoted]
    split <;> exact h
  | removed n => exact iff_of_true (h.dropLast _) hnil
  | written hp hw hb => exact iff_of_true (h.rewritten hp) hnil
  | leftover hc hb => exact iff_of_true (hb.problem ▸ h) hnil
  | closed => exact iff_of_true h hnil
  | renamed name => exact iff_of_true h hnil

end Step

end Binding

variable {b : Binding B}

theorem Probe.call_undone (h : b.Aligned) (p : Probe α) : b.Undone (p.call b) := by
  cases p with
  | solve => exact .bind_pure (.inl (solve_unmoved b)) _
  | solveWith objective => exact .bind_pure (.inl (solveWith_unmoved b objective)) _
  | solveMaybeWith objective => exact .bind_pure (.inl (solveMaybeWith_unmoved b objective)) _
  | testConstraint c objective => exact .bind_pure (testConstraint_undone h c objective) _
  | testBound index sense value objective =>
    exact .bind_pure (testConstraint_undone h (.bound index sense value) objective) _
  | testComparison first sense second objective =>
    exact .bind_pure (testComparison_undone h first sense second objective) _
  | isFeasible x => exact .bind_pure (.inl (isFeasible_unmoved h x)) _

theorem Probe.call_unmoved (h : b.Aligned) (p : Probe α) (hr : (p.call b).Returned) :
    b.Unmoved (p.call b).state := by
  obtain hb | ⟨⟨f, hf⟩, _⟩ := p.call_undone h
  · exact hb
  · exact absurd hf (hr f)

namespace Command

theorem appended_eq {c : Command α} {scope : RowScope} (hc : c.scope? = some scope) :
    c.appended = scope.rows c.constraints := by
  cases c with
  | addConstraint | addConstraints | addComparison | addBound =>
    obtain rfl := Option.some.inj hc
    rfl
  | _ => cases hc

theorem fits_iff {c : Command α} {scope : RowScope} (hc : c.scope? = some scope) :
    c.Fits b ↔ ∀ d ∈ c.constraints, ∀ t ∈ d.terms, t.1 < b.problem.columns := by
  cases c with
  | addConstraint d | addConstraints ds | addBound index sense value =>
    simp [Fits, constraints, Constraint.bound]
  | addComparison first sense second =>
    by_cases hne : first = second
    · simp [Fits, constraints, Constraint.comparison, hne]
    · have hrow : (Constraint.comparison first sense second : Option (Constraint α)) =
          some ⟨[(first, 1), (second, -1)], sense, 0, none⟩ := if_neg hne
      simp only [Fits, constraints, hrow, Option.toList_some, List.forall_mem_singleton,
        List.forall_mem_cons]
      simp [hne]
  | _ => cases hc

def AppendsAt (b : Binding B) (scope : RowScope) (c : Command α) : Prop :=
  (c.Fits b ∧ ∃ a es, c.call b = ⟨.ok a, b.withConstraints scope c.constraints, es⟩) ∨
    ¬ c.Fits b ∧ ∃ e, c.call b = ⟨.error (.error e), b, []⟩

/-- A single row, whatever the call answers then. -/
theorem appendsAt_of_one (h : b.Aligned) {c : Command α} {scope : RowScope} {row : Constraint α}
    (a : Answer α) (hc : c.scope? = some scope) (hrow : c.constraints = [row])
    (hcall : c.call b = (Binding.addConstraint row scope >>= fun _ => pure a) b) :
    c.AppendsAt b scope := by
  have hfits : c.Fits b ↔ row.checkColumns b.problem.columns = .ok () := by
    rw [fits_iff hc, hrow, List.forall_mem_singleton, Constraint.checkColumns_eq_ok]
  rw [AppendsAt, hfits, hrow, hcall, Call.bind_pure_apply]
  cases hrow : row.checkColumns b.problem.columns with
  | ok u =>
    obtain ⟨es, hes⟩ := addConstraint_apply h scope hrow
    exact .inl ⟨rfl, a, es, by rw [hes]; rfl⟩
  | error e =>
    refine .inr ⟨by simp, .problem e, ?_⟩
    rw [addConstraint_refused hrow]
    rfl

theorem appendsAt (h : b.Aligned) {c : Command α} {scope : RowScope}
    (hc : c.scope? = some scope) : c.AppendsAt b scope := by
  cases c with
  | addConstraint row scope =>
    obtain rfl := Option.some.inj hc
    exact appendsAt_of_one h .done rfl rfl rfl
  | addConstraints rows scope =>
    obtain rfl := Option.some.inj hc
    obtain hrows | ⟨index, hindex, hrows⟩ := Constraint.beyond_cases b.problem.columns rows
    · obtain ⟨es, hes⟩ := addConstraints_apply h scope hrows
      exact .inl ⟨fun c hc => Constraint.checkColumns_eq_ok.1 (hrows c hc), .done, es ++ [],
        Call.bind_eq hes rfl⟩
    · exact .inr ⟨hrows, _, Call.bind_of_error (addConstraints_refused hindex scope) _⟩
  | addComparison first sense second scope =>
    obtain rfl := Option.some.inj hc
    cases hrow : (Constraint.comparison first sense second : Option (Constraint α)) with
    | none =>
      have heq : first = second := by simpa [Constraint.comparison] using hrow
      refine .inl ⟨fun hne => absurd heq hne, .added false, [], ?_⟩
      simp [call, Binding.addComparison, constraints, hrow, withConstraints]
    | some row =>
      refine appendsAt_of_one h (.added true) rfl (by rw [constraints, hrow]; rfl) ?_
      simp only [call, Binding.addComparison, hrow, Call.bind_pure_apply]
      cases (Binding.addConstraint row _ b).result <;> rfl
  | addBound index sense value scope =>
    obtain rfl := Option.some.inj hc
    exact appendsAt_of_one h .done rfl rfl rfl
  | _ => cases hc

/-- The command is done as a whole, by one step, or refused and nothing is done. -/
def Settled (b : Binding B) (c : Command α) : Prop :=
  (c.Fits b ∧ ∃ a b' es, c.call b = ⟨.ok a, b', es⟩ ∧ b.Step c.appended b' ∧
      b'.session.model.rows = c.rowsAfter b.session.model.rows) ∨
    ¬ c.Fits b ∧ ∃ e, c.call b = ⟨.error (.error e), b, []⟩

theorem settled_of_ok {c : Command α} (hf : c.Fits b) {a : Answer α} {b' : Binding B}
    {es : List (Event α)} (h : c.call b = ⟨.ok a, b', es⟩) (hstep : b.Step c.appended b')
    (hrows : b'.session.model.rows = c.rowsAfter b.session.model.rows) : c.Settled b :=
  .inl ⟨hf, a, b', es, h, hstep, hrows⟩

theorem settled_of_refused {c : Command α} (hf : ¬ c.Fits b) {β : Type} {call : BindingCall B β}
    {e : SolverError α} (h : call b = ⟨.error (.error e), b, []⟩) {k : β → BindingCall B (Answer α)}
    (hcall : c.call b = (call >>= k) b) : c.Settled b :=
  .inr ⟨hf, e, hcall.trans (Call.bind_of_error h k)⟩

theorem rowsAfter_of_scope {c : Command α} {scope : RowScope} (hc : c.scope? = some scope)
    (rows : List (ModelRow α)) : c.rowsAfter rows = rows ++ c.constraints.map .ofConstraint := by
  cases c with
  | addConstraint | addConstraints | addComparison | addBound => rfl
  | _ => cases hc

theorem settled_of_scope (h : b.Aligned) {c : Command α} {scope : RowScope}
    (hc : c.scope? = some scope) : c.Settled b := by
  obtain ⟨hfits, a, es, hcall⟩ | hrefused := appendsAt h hc
  · refine settled_of_ok hfits hcall ?_ ?_
    · rw [appended_eq hc]
      exact .appended scope ((fits_iff hc).1 hfits)
    · rw [rows_withConstraints, rowsAfter_of_scope hc]
  · exact .inr hrefused

theorem settled (h : b.Aligned) (c : Command α) (hc : ∀ p, c ≠ .probe p) : c.Settled b := by
  have hsame : b.session.model.rows = b.session.model.rows ++ [] := (List.append_nil _).symm
  cases c with
  | probe p => exact absurd rfl (hc p)
  | changeObjective objective =>
    by_cases ho : objective.length = b.problem.columns
    · exact settled_of_ok ho (Call.bind_eq (changeObjective_apply ho) rfl) (.objective ho) hsame
    · obtain ⟨e, he⟩ := changeObjective_refused (b := b) ho
      exact settled_of_refused ho he rfl
  | changeKinds kinds =>
    by_cases hk : kinds.length = b.problem.columns
    · exact settled_of_ok hk (Call.bind_eq (changeKinds_apply hk) rfl) (.kinds hk) hsame
    · obtain ⟨e, he⟩ := changeKinds_refused (b := b) hk
      exact settled_of_refused hk he rfl
  | addConstraint | addConstraints | addComparison | addBound => exact settled_of_scope h rfl
  | removeLast n =>
    by_cases hn : n ≤ b.shared.length
    · refine settled_of_ok hn (Call.bind_eq (removeLast_apply h hn) rfl) (.removed n) ?_
      rw [rowsAfter, ← h.shared]
      rfl
    · exact settled_of_refused hn (removeLast_refused (Nat.not_le.1 hn)) rfl
  | changeCoefficients changes =>
    by_cases hf : ∀ c ∈ changes, c.1 < b.shared.length ∧ c.2.1 < b.problem.columns
    · obtain ⟨p, hp, hre, hal⟩ := changeCoefficients_apply h hf
      have hw : ∀ w ∈ changes.map Model.termWrite, w.2.Fits b.problem.columns := by
        rw [List.forall_mem_map]
        exact fun c hm => (hf c hm).2
      exact settled_of_ok hf (Call.bind_eq hp rfl) (.written hre hw hal) rfl
    · obtain ⟨e, he⟩ := changeCoefficients_refused hf
      exact settled_of_refused hf he rfl
  | changeRhs changes =>
    by_cases hf : ∀ c ∈ changes, c.1 < b.shared.length
    · obtain ⟨p, hp, hre, hal⟩ := changeRhs_apply h hf
      have hw : ∀ w ∈ changes.map Model.rhsWrite, w.2.Fits b.problem.columns := by
        rw [List.forall_mem_map]
        exact fun _ _ => trivial
      exact settled_of_ok hf (Call.bind_eq hp rfl) (.written hre hw hal) rfl
    · obtain ⟨e, he⟩ := changeRhs_refused hf
      exact settled_of_refused hf he rfl
  | close =>
    cases hclosed : b.session.closed with
    | true =>
      exact settled_of_ok trivial (Call.bind_eq (close_again hclosed) rfl) (.unmoved (.refl b))
        hsame
    | false => exact settled_of_ok trivial (Call.bind_eq (close_apply hclosed) rfl) .closed hsame
  | rename name => exact settled_of_ok trivial rfl (.renamed name) hsame

theorem step (h : b.Aligned) (c : Command α) :
    b.Step (if (c.call b).result.isOk then c.appended else []) (c.call b).state := by
  by_cases hc : ∃ p, c = .probe p
  · obtain ⟨p, rfl⟩ := hc
    have hs : b.Step [] (p.call b).state := by
      obtain hb | ⟨_, c, hc, hb⟩ := p.call_undone h
      · exact .unmoved hb
      · exact .leftover hc hb
    rw [appended, ite_self]
    exact hs
  · obtain ⟨-, a, b', es, hcall, hstep, -⟩ | ⟨-, e, hcall⟩ := c.settled h (not_exists.1 hc)
    · rw [hcall]
      exact hstep
    · rw [hcall]
      exact .unmoved (.refl b)

end Command

end LinProg
