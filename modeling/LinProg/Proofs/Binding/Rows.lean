import LinProg.Proofs.Binding.Aligned
import LinProg.Proofs.Problem.RowCalls

namespace LinProg

variable {α : Type} [Scalar α]

def RowScope.rows (scope : RowScope) (cs : List (Constraint α)) : List (NewRow α) :=
  match scope with
  | .both => cs.map .ofConstraint
  | .sessionOnly => []

namespace Binding

variable {B : Backend α} {b : Binding B}

def withConstraint (scope : RowScope) (b : Binding B) (c : Constraint α) : Binding B :=
  b.withRows (b.problem.pushRows (scope.rows [c])) (b.session.model.rows ++ [.ofConstraint c])
    (b.shared ++ [scope == .both])

theorem Aligned.withConstraint (h : b.Aligned) (scope : RowScope) (c : Constraint α) :
    (b.withConstraint scope c).Aligned := by
  apply h.withRows (Problem.frame_pushRows _ _)
  · rw [chosen_append h.shared]
    cases scope with
    | both => exact h.rows.pushRow (.ofConstraint c)
    | sessionOnly =>
      have hn : chosen [RowScope.sessionOnly == .both] [ModelRow.ofConstraint c] = [] := rfl
      rw [hn, List.append_nil]
      exact h.rows
  · simp [h.shared]

theorem appendSession_apply (b : Binding B) (scope : RowScope) (c : Constraint α) :
    (do
      onSession (Session.addRow c)
      Call.modify fun b => { b with shared := b.shared ++ [scope == .both] }
      let b ← Call.state
      Call.emit (.rowAdded b.name (← Call.ofOption (less? b.numRows 1)) scope) :
        BindingCall B Unit) b =
    ⟨.ok (), b.withRows b.problem (b.session.model.rows ++ [.ofConstraint c])
      (b.shared ++ [scope == .both]), [.rowAdded b.name b.shared.length scope]⟩ := by
  have hs := onSession_apply (b := b) (Session.change_apply (·.addRow c) b.session)
  refine Call.bind_eq hs ?_
  simp only [Call.modify_bind, Call.state_bind, numRows, List.length_append,
    List.length_singleton, less?_succ_one, Call.ofOption_some, Call.pure_bind]
  rfl

theorem addConstraint_sessionOnly_apply {c : Constraint α}
    (hc : c.checkColumns b.problem.columns = .ok ()) : addConstraint c .sessionOnly b =
      ⟨.ok (), b.withConstraint .sessionOnly c,
        [.rowAdded b.name b.shared.length .sessionOnly]⟩ := by
  simp only [addConstraint, Call.state_bind, numCols, hc, Call.mapError_ok, Call.ofExcept_ok,
    Call.pure_bind, reduceCtorEq, if_false]
  exact appendSession_apply b .sessionOnly c

theorem addConstraint_apply (h : b.Aligned) (scope : RowScope) {c : Constraint α}
    (hc : c.checkColumns b.problem.columns = .ok ()) :
    ∃ es, addConstraint c scope b = ⟨.ok (), b.withConstraint scope c, es⟩ := by
  cases scope with
  | both =>
    have hp := onProblem_apply (b := b) (Problem.addConstraint_apply h.frame.matrix hc)
    refine ⟨[.rowAppended b.problem.numRows c, .rowAdded b.name b.shared.length .both], ?_⟩
    simp only [addConstraint, Call.state_bind, numCols, hc, Call.mapError_ok, Call.ofExcept_ok,
      Call.pure_bind, if_true]
    exact Call.bind_eq hp (appendSession_apply _ .both c)
  | sessionOnly => exact ⟨_, addConstraint_sessionOnly_apply hc⟩

theorem addConstraint_refused {c : Constraint α} {e : ProblemError α}
    (hc : c.checkColumns b.problem.columns = .error e) (scope : RowScope) :
    addConstraint c scope b = ⟨.error (.error (.problem e)), b, []⟩ := by
  simp [addConstraint, numCols, hc]

def withConstraints (scope : RowScope) (b : Binding B) (cs : List (Constraint α)) : Binding B :=
  cs.foldl (withConstraint scope) b

theorem Aligned.withConstraints (h : b.Aligned) (scope : RowScope) (cs : List (Constraint α)) :
    (b.withConstraints scope cs).Aligned := by
  induction cs generalizing b with
  | nil => exact h
  | cons c cs ih => exact ih (h.withConstraint scope c)

theorem problem_withConstraints (b : Binding B) (scope : RowScope) (cs : List (Constraint α)) :
    (b.withConstraints scope cs).problem = b.problem.pushRows (scope.rows cs) := by
  induction cs generalizing b with
  | nil => cases scope <;> rfl
  | cons c cs ih =>
    rw [Binding.withConstraints, List.foldl_cons]
    refine (ih (b.withConstraint scope c)).trans ?_
    rw [Binding.withConstraint, Binding.withRows, ← Problem.pushRows_append]
    cases scope <;> rfl

theorem rows_withConstraints (b : Binding B) (scope : RowScope)
    (cs : List (Constraint α)) : (b.withConstraints scope cs).session.model.rows =
      b.session.model.rows ++ cs.map .ofConstraint := by
  induction cs generalizing b with
  | nil => simp [withConstraints]
  | cons c cs ih =>
    rw [Binding.withConstraints, List.foldl_cons]
    refine (ih (b.withConstraint scope c)).trans ?_
    change (b.session.model.rows ++ [.ofConstraint c]) ++ _ = _
    simp

theorem columns_withConstraints (b : Binding B) (scope : RowScope) (cs : List (Constraint α)) :
    (b.withConstraints scope cs).problem.columns = b.problem.columns := by
  rw [problem_withConstraints]
  exact Problem.columns_of_frame (Problem.frame_pushRows _ _)

theorem forM_addConstraint (h : b.Aligned) (scope : RowScope) {cs : List (Constraint α)}
    (hcs : ∀ c ∈ cs, c.checkColumns b.problem.columns = .ok ()) :
    ∃ es, cs.forM (addConstraint · scope) b = ⟨.ok (), b.withConstraints scope cs, es⟩ := by
  induction cs generalizing b with
  | nil => exact ⟨[], rfl⟩
  | cons c cs ih =>
    obtain ⟨es, hc⟩ := addConstraint_apply h scope (hcs c (by simp))
    have hcolumns : (b.withConstraint scope c).problem.columns = b.problem.columns :=
      columns_withConstraints b scope [c]
    obtain ⟨es', hes'⟩ := ih (h.withConstraint scope c) fun d hd => by
      rw [hcolumns]
      exact hcs d (by simp [hd])
    refine ⟨es ++ es', ?_⟩
    rw [Call.forM_cons]
    exact Call.bind_eq hc hes'

theorem addConstraints_apply (h : b.Aligned) (scope : RowScope) {cs : List (Constraint α)}
    (hcs : ∀ c ∈ cs, c.checkColumns b.problem.columns = .ok ()) :
    ∃ es, addConstraints cs scope b = ⟨.ok (), b.withConstraints scope cs, es⟩ := by
  obtain ⟨es, hes⟩ := forM_addConstraint h scope hcs
  have hchecks : ∀ c ∈ cs,
      (c.checkColumns b.problem.columns).mapError SolverError.problem = .ok () := by
    intro c hc
    rw [hcs c hc]
    rfl
  refine ⟨es, ?_⟩
  simp only [addConstraints, Call.state_bind]
  exact Call.bind_eq (Call.forM_ofExcept hchecks b) hes

theorem addConstraints_refused {cs : List (Constraint α)} {index : Nat}
    (h : cs.findSome? (Constraint.beyond? b.problem.columns) = some index) (scope : RowScope) :
    addConstraints cs scope b =
      ⟨.error (.error (.problem (.missingColumn index b.problem.columns))), b, []⟩ := by
  have hfirst (c : Constraint α) : (c.checkColumns b.problem.columns).mapError SolverError.problem =
      (c.beyond? b.problem.columns).elim (.ok ())
        fun index => .error (.problem (.missingColumn index b.problem.columns)) := by
    rw [Constraint.checkColumns_eq]
    cases c.beyond? b.problem.columns <;> rfl
  have hchecks := Call.forM_ofExcept_first (υ := Event α) hfirst h b
  simp only [addConstraints, Call.state_bind]
  exact Call.bind_of_error hchecks _

def withoutLast (n : Nat) (b : Binding B) : Binding B :=
  let start := b.shared.length - n
  b.withRows (b.problem.dropLast ((b.shared.drop start).count true))
    (b.session.model.rows.take start) (b.shared.take start)

theorem Aligned.withoutLast (h : b.Aligned) (n : Nat) : (b.withoutLast n).Aligned := by
  let start := b.shared.length - n
  apply h.withRows (Problem.frame_dropLast _ _)
  · have hcount : (b.shared.take start).count true + (b.shared.drop start).count true =
        b.shared.count true := by
      rw [← List.count_append, List.take_append_drop]
    have hdrop := h.rows.dropLast ((b.shared.drop start).count true)
    rw [length_chosen h.shared, ← hcount, Nat.add_sub_cancel, ← chosen_take h.shared] at hdrop
    exact hdrop
  · simp [h.shared]

theorem removeLast_apply (h : b.Aligned) {n : Nat} (hn : n ≤ b.shared.length) :
    removeLast n b = ⟨.ok (), b.withoutLast n, [.rowsRemoved b.name n]⟩ := by
  let start := b.shared.length - n
  have hk : (b.shared.drop start).count true ≤ b.problem.numRows := by
    rw [h.numRows]
    exact (List.drop_sublist start b.shared).count_le true
  have hp := onProblem_apply (b := b) (Problem.removeLast_apply hk)
  have hstart : start ≤ b.session.model.rows.length := by
    rw [← h.shared]
    exact Nat.sub_le _ _
  have hdelete : b.session.model.deleteRows? start b.shared.length =
      some (b.session.model.withRows (b.session.model.rows.take start)) := by
    rw [h.shared]
    exact Model.deleteRows?_eq hstart
  have hs := onSession_apply
    (b := { b with problem := b.problem.dropLast ((b.shared.drop start).count true) })
    (Session.change?_apply (f := (·.deleteRows? start b.shared.length)) hdelete)
  simp only [removeLast, Call.state_bind, numRows, hn, decide_true, Call.require_true,
    Call.pure_bind, less?_of_le hn, Call.ofOption_some]
  exact Call.bind_eq hp (Call.bind_eq hs rfl)

omit [Scalar α] in
theorem removeLast_refused {n : Nat} (hn : b.shared.length < n) : removeLast n b =
    ⟨.error (.error (.problem (.tooFewRows n b.shared.length))), b, []⟩ := by
  simp [removeLast, numRows, Nat.not_le.2 hn]

omit [Scalar α] in
theorem problemRow?_of_shared (h : b.problem.numRows = b.shared.count true) {row : Nat}
    (hrow : b.shared[row]? = some true) :
    b.problemRow? row = some (some ((b.shared.take row).count true)) := by
  rw [problemRow?, hrow]
  by_cases hall : b.problem.numRows = b.numRows
  · obtain ⟨hlt, _⟩ := List.getElem?_eq_some_iff.1 hrow
    have hcount : b.shared.count true = b.shared.length := h.symm.trans hall
    simp [hall, count_take_of_count_eq_length hcount (Nat.le_of_lt hlt)]
  · simp [hall]

def writeOnProblem (write : Nat × RowWrite α) : BindingCall B Unit :=
  onProblemRow write.1 fun r => Problem.writeCall r write.2

theorem writeOnProblem_apply (hfit : b.problem.ColumnsFit) {rows : List (ModelRow α)}
    (hrows : b.problem.HasRows (chosen b.shared rows)) (hshared : b.shared.length = rows.length)
    {write : Nat × RowWrite α} (hrow : write.1 < rows.length)
    (hwrite : write.2.Fits b.problem.columns) :
    ∃ p, writeOnProblem write b = ⟨.ok (), { b with problem := p }, []⟩ ∧
      b.problem.Rewritten p ∧ p.HasRows (chosen b.shared (rows.modify write.1 write.2.apply)) := by
  obtain ⟨row, w⟩ := write
  have hnum : b.problem.numRows = b.shared.count true := by
    rw [hrows.numRows, length_chosen hshared]
  cases hs : b.shared[row]? with
  | none => 
    have hle := List.getElem?_eq_none_iff.1 hs
    exact absurd hrow (by omega)
  | some isShared =>
    cases isShared with
    | true =>
      let r := (b.shared.take row).count true
      have hr : r < (chosen b.shared rows).length := by
        rw [length_chosen hshared]
        exact count_take_lt hs
      have hcall := onProblem_apply (b := b) (Problem.writeCall_apply hfit hrows hr hwrite)
      refine ⟨b.problem.writeRow r w, ?_, Problem.writeRow_rewritten r w b.problem, ?_⟩
      · simp only [writeOnProblem, onProblemRow, Call.state_bind, problemRow?_of_shared hnum hs,
          Call.ofOption_some, Call.pure_bind]
        exact hcall
      · rw [chosen_modify_of_true hs]
        exact hrows.writeRow r w
    | false =>
      refine ⟨b.problem, ?_, .refl _, ?_⟩
      · simp [writeOnProblem, onProblemRow, problemRow?, hs]
      · rw [chosen_modify_of_false hs]
        exact hrows

theorem forM_writeOnProblem (hfit : b.problem.ColumnsFit) {rows : List (ModelRow α)}
    (hrows : b.problem.HasRows (chosen b.shared rows)) (hshared : b.shared.length = rows.length)
    {writes : List (Nat × RowWrite α)}
    (hwrites : ∀ w ∈ writes, w.1 < rows.length ∧ w.2.Fits b.problem.columns) :
    ∃ p, writes.forM writeOnProblem b = ⟨.ok (), { b with problem := p }, []⟩ ∧
      b.problem.Rewritten p ∧ p.HasRows (chosen b.shared (Model.writeRows writes rows)) := by
  induction writes generalizing b rows with
  | nil => exact ⟨b.problem, rfl, .refl _, hrows⟩
  | cons w writes ih =>
    obtain ⟨hrow, hw⟩ := hwrites w (by simp)
    obtain ⟨p, hcall, hre, hp⟩ := writeOnProblem_apply hfit hrows hshared hrow hw
    have hcolumns := Problem.columns_of_frame hre.frame
    obtain ⟨q, hcalls, hre', hq⟩ := ih (b := { b with problem := p })
      (hfit.of_frame hre.frame) hp (by simpa using hshared) fun v hv => by
        simpa [hcolumns] using hwrites v (by simp [hv])
    refine ⟨q, ?_, hre.trans hre', hq⟩
    rw [Call.forM_cons]
    exact Call.bind_eq hcall hcalls

theorem writeBoth_apply (h : b.Aligned) {writes : List (Nat × RowWrite α)}
    (hwrites : ∀ w ∈ writes, w.1 < b.session.model.rows.length ∧ w.2.Fits b.problem.columns)
    {f : Model α → Option (Model α)} (hf : f b.session.model =
      some (b.session.model.withRows (Model.writeRows writes b.session.model.rows))) :
    ∃ p, (writes.forM writeOnProblem >>= fun _ => onSession (Session.change? f)) b =
        ⟨.ok (), b.withRows p (Model.writeRows writes b.session.model.rows) b.shared, []⟩ ∧
      b.problem.Rewritten p ∧
      (b.withRows p (Model.writeRows writes b.session.model.rows) b.shared).Aligned := by
  obtain ⟨p, hcalls, hre, hp⟩ :=
    forM_writeOnProblem h.frame.toColumnsFit h.rows h.shared hwrites
  have hs := onSession_apply (b := { b with problem := p }) (Session.change?_apply hf)
  refine ⟨p, Call.bind_eq hcalls hs, hre, h.withRows hre.frame hp ?_⟩
  rw [Model.length_writeRows]
  exact h.shared

omit [Scalar α] in
theorem find?_coefficients_eq_none {changes : List (Nat × Nat × α)} {rows columns : Nat} :
    (changes.find? fun (row, column, _) => rows ≤ row || columns ≤ column) = none ↔
      ∀ c ∈ changes, c.1 < rows ∧ c.2.1 < columns := by
  simp

omit [Scalar α] in
theorem find?_rhs_eq_none {changes : List (Nat × α)} {rows : Nat} :
    (changes.find? fun c => rows ≤ c.1) = none ↔ ∀ c ∈ changes, c.1 < rows := by
  simp

theorem changeCoefficients_apply (h : b.Aligned) {changes : List (Nat × Nat × α)}
    (hc : ∀ c ∈ changes, c.1 < b.shared.length ∧ c.2.1 < b.problem.columns) :
    let rows := Model.writeRows (changes.map Model.termWrite) b.session.model.rows
    ∃ p, changeCoefficients changes b = ⟨.ok (), b.withRows p rows b.shared, []⟩ ∧
      b.problem.Rewritten p ∧ (b.withRows p rows b.shared).Aligned := by
  have hfind : (changes.find? fun (row, column, _) => b.numRows ≤ row || b.numCols ≤ column) =
      none := find?_coefficients_eq_none.2 hc
  rw [h.shared] at hc
  have hwrites : ∀ w ∈ changes.map Model.termWrite,
      w.1 < b.session.model.rows.length ∧ w.2.Fits b.problem.columns := by
    intro w hw
    obtain ⟨c, hm, rfl⟩ := List.mem_map.1 hw
    exact hc c hm
  have hf := Model.changeCoefficients?_eq fun c hm => (hc c hm).1
  obtain ⟨p, hcall, hp⟩ := writeBoth_apply h hwrites (f := (·.changeCoefficients? changes)) hf
  refine ⟨p, ?_, hp⟩
  rw [← hcall, Call.bind_apply, Call.forM_map]
  simp only [changeCoefficients, Call.state_bind, hfind]
  rfl

theorem changeCoefficients_refused {changes : List (Nat × Nat × α)}
    (hc : ¬ ∀ c ∈ changes, c.1 < b.shared.length ∧ c.2.1 < b.problem.columns) :
    ∃ e, changeCoefficients changes b = ⟨.error (.error e), b, []⟩ := by
  cases hfind : changes.find? fun (row, column, _) => b.numRows ≤ row || b.numCols ≤ column with
  | none => exact absurd (find?_coefficients_eq_none.1 hfind) hc
  | some c =>
    refine ⟨.problem (.missingEntry c.1 c.2.1 b.numRows b.numCols), ?_⟩
    simp only [changeCoefficients, Call.state_bind, hfind]
    rfl

theorem changeRhs_apply (h : b.Aligned) {changes : List (Nat × α)}
    (hc : ∀ c ∈ changes, c.1 < b.shared.length) :
    let rows := Model.writeRows (changes.map Model.rhsWrite) b.session.model.rows
    ∃ p, changeRhs changes b = ⟨.ok (), b.withRows p rows b.shared, []⟩ ∧
      b.problem.Rewritten p ∧ (b.withRows p rows b.shared).Aligned := by
  have hfind : (changes.find? fun c => b.numRows ≤ c.1) = none := find?_rhs_eq_none.2 hc
  rw [h.shared] at hc
  have hwrites : ∀ w ∈ changes.map Model.rhsWrite,
      w.1 < b.session.model.rows.length ∧ w.2.Fits b.problem.columns := by
    intro w hw
    obtain ⟨c, hm, rfl⟩ := List.mem_map.1 hw
    exact ⟨hc c hm, trivial⟩
  have hf := Model.changeRhs?_eq hc
  obtain ⟨p, hcall, hp⟩ := writeBoth_apply h hwrites (f := (·.changeRhs? changes)) hf
  refine ⟨p, ?_, hp⟩
  rw [← hcall, Call.bind_apply, Call.forM_map]
  simp only [changeRhs, Call.state_bind, hfind]
  rfl

omit [Scalar α] in
theorem changeRhs_refused {changes : List (Nat × α)}
    (hc : ¬ ∀ c ∈ changes, c.1 < b.shared.length) :
    ∃ e, changeRhs changes b = ⟨.error (.error e), b, []⟩ := by
  cases hfind : changes.find? fun c => b.numRows ≤ c.1 with
  | none => exact absurd (find?_rhs_eq_none.1 hfind) hc
  | some c =>
    refine ⟨.problem (.missingEntry c.1 0 b.numRows 1), ?_⟩
    simp only [changeRhs, Call.state_bind, hfind]
    rfl

end Binding

end LinProg
