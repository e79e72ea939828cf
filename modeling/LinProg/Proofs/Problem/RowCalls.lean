import LinProg.Proofs.Problem.Rows

namespace LinProg

variable {α : Type}

namespace Constraint

def beyond? (columns : Nat) (c : Constraint α) : Option Nat :=
  c.indices.find? (columns ≤ ·)

theorem beyond?_eq_none {c : Constraint α} {columns : Nat} :
    c.beyond? columns = none ↔ ∀ t ∈ c.terms, t.1 < columns := by
  simp [beyond?, indices]

theorem checkColumns_eq (c : Constraint α) (columns : Nat) : c.checkColumns columns =
    (c.beyond? columns).elim (.ok ()) fun index => .error (.missingColumn index columns) := by
  rw [checkColumns, beyond?]
  cases c.indices.find? (columns ≤ ·) <;> rfl

theorem checkColumns_eq_ok {c : Constraint α} {columns : Nat} :
    c.checkColumns columns = .ok () ↔ ∀ t ∈ c.terms, t.1 < columns := by
  rw [← beyond?_eq_none, checkColumns_eq]
  cases c.beyond? columns <;> simp

theorem beyond_cases (columns : Nat) (cs : List (Constraint α)) :
    (∀ c ∈ cs, c.checkColumns columns = .ok ()) ∨
      ∃ index, cs.findSome? (beyond? columns) = some index ∧
        ¬ ∀ c ∈ cs, ∀ t ∈ c.terms, t.1 < columns := by
  cases hcs : cs.findSome? (beyond? columns) with
  | none =>
    refine .inl fun c hc => checkColumns_eq_ok.2 ?_
    exact beyond?_eq_none.1 (List.findSome?_eq_none_iff.1 hcs c hc)
  | some index =>
    obtain ⟨c, hc, hindex⟩ := List.exists_of_findSome?_eq_some hcs
    refine .inr ⟨index, rfl, fun hall => ?_⟩
    rw [beyond?_eq_none.2 (hall c hc)] at hindex
    cases hindex

end Constraint

namespace Problem

variable {p : Problem α}

theorem onMatrix_of_ok {c : MatrixCall (Event α) α Unit} {m : SparseMatrix α}
    (h : c p.matrix = ⟨.ok (), m, []⟩) :
    onMatrix c p = ⟨.ok (), { p with matrix := m }, []⟩ := by
  simp [onMatrix, Call.on_apply, h]

theorem onMatrix_of_error {c : MatrixCall (Event α) α Unit} {e : ProblemError α}
    (h : c p.matrix = ⟨.error (.error e), p.matrix, []⟩) :
    onMatrix c p = ⟨.error (.error e), p, []⟩ := by
  simp [onMatrix, Call.on_apply, h, Failure.map]

theorem setRowRhs_apply [Scalar α] {row : Nat} (h : row < p.rhs.length) (value : α) :
    setRowRhs row value p = ⟨.ok (), p.writeRow row (.rhs value), []⟩ := by
  simp [setRowRhs, writeRow, h]

theorem setRowRhs_refused {row : Nat} (h : ¬ row < p.rhs.length) (value : α) :
    setRowRhs row value p = ⟨.error (.error (.missingEntry row 0 p.numRows 1)), p, []⟩ := by
  simp [setRowRhs, h]

theorem removeLast_apply {n : Nat} (h : n ≤ p.numRows) :
    removeLast n p = ⟨.ok (), p.dropLast n, []⟩ := by
  have hm := onMatrix_of_ok (p := p) (SparseMatrix.removeLast_apply h)
  simp only [removeLast, Call.bind_of_ok hm, Call.modify_apply]
  simp [dropLast, numRows, SparseMatrix.numRows]

theorem removeLast_refused {n : Nat} (h : p.numRows < n) :
    removeLast n p = ⟨.error (.error (.tooFewRows n p.numRows)), p, []⟩ := by
  have hm := onMatrix_of_error (p := p) (SparseMatrix.removeLast_refused h)
  simp only [removeLast, Call.bind_of_error hm]
  rfl

variable [Scalar α]

theorem setCoefficient_apply {row column : Nat} (hr : row < p.numRows)
    (hc : column < p.matrix.columns) (value : α) :
    setCoefficient row column value p = ⟨.ok (), p.writeRow row (.term column value), []⟩ :=
  onMatrix_of_ok (SparseMatrix.set_apply hr hc value)

theorem setCoefficient_refused {row column : Nat}
    (h : ¬ (row < p.numRows ∧ column < p.matrix.columns)) (value : α) :
    setCoefficient row column value p =
      ⟨.error (.error (.missingEntry row column p.numRows p.matrix.columns)), p, []⟩ :=
  onMatrix_of_error (SparseMatrix.set_refused h value)

def writeCall (row : Nat) : RowWrite α → ProblemCall α Unit
  | .term column value => setCoefficient row column value
  | .rhs value => setRowRhs row value

theorem writeCall_apply (hp : p.ColumnsFit) {rows : List (ModelRow α)} (hrows : p.HasRows rows)
    {row : Nat} (hr : row < rows.length) {w : RowWrite α} (hw : w.Fits p.columns) :
    writeCall row w p = ⟨.ok (), p.writeRow row w, []⟩ := by
  cases w with
  | term column value =>
    have hc : column < p.matrix.columns := hp.matrix ▸ hw
    exact setCoefficient_apply (hrows.numRows ▸ hr) hc value
  | rhs value => exact setRowRhs_apply (hrows.rhs_length ▸ hr) value

theorem addConstraint_apply (hp : p.matrix.columns = p.columns) {c : Constraint α}
    (hc : c.checkColumns p.columns = .ok ()) :
    addConstraint c p =
      ⟨.ok (), p.pushRow (.ofConstraint c), [.rowAppended p.numRows c]⟩ := by
  have hterms : ∀ t ∈ c.terms, t.1 < p.matrix.columns := by
    rw [hp]
    exact Constraint.checkColumns_eq_ok.1 hc
  have hpush := onMatrix_of_ok (p := p) (SparseMatrix.pushTerms_apply hterms)
  have hless : less? (p.pushRow (.ofConstraint c)).numRows 1 = some p.numRows := by
    have hnum : (p.pushRow (.ofConstraint c)).numRows = p.numRows + 1 := by
      simp [pushRow, NewRow.ofConstraint, pushRowData, numRows, SparseMatrix.numRows]
    rw [hnum, less?_succ_one]
  have htold : (do
      let p ← Call.state
      Call.emit (.rowAppended (← Call.ofOption (less? p.numRows 1)) c) : ProblemCall α Unit)
      (p.pushRow (.ofConstraint c)) =
      ⟨.ok (), p.pushRow (.ofConstraint c), [.rowAppended p.numRows c]⟩ := by
    rw [Call.state_bind, hless]
    rfl
  simp only [addConstraint, Call.state_bind, hc, Call.ofExcept_ok, Call.pure_bind,
    Call.bind_of_ok hpush, Call.modify_bind]
  exact htold

theorem addConstraint_refused {c : Constraint α} {e : ProblemError α}
    (hc : c.checkColumns p.columns = .error e) :
    addConstraint c p = ⟨.error (.error e), p, []⟩ := by
  simp [addConstraint, hc]

theorem forM_addConstraint {cs : List (Constraint α)} (hp : p.matrix.columns = p.columns)
    (hcs : ∀ c ∈ cs, c.checkColumns p.columns = .ok ()) :
    ∃ es, cs.forM addConstraint p = ⟨.ok (), p.pushRows (cs.map .ofConstraint), es⟩ := by
  induction cs generalizing p with
  | nil => exact ⟨[], rfl⟩
  | cons c cs ih =>
    have hc := addConstraint_apply hp (hcs c (by simp))
    obtain ⟨es, hes⟩ := ih (p := p.pushRow (.ofConstraint c)) hp fun d hd => hcs d (by simp [hd])
    refine ⟨.rowAppended p.numRows c :: es, ?_⟩
    rw [Call.forM_cons]
    exact Call.bind_eq hc hes

theorem addConstraints_apply {cs : List (Constraint α)} (hp : p.matrix.columns = p.columns)
    (hcs : ∀ c ∈ cs, c.checkColumns p.columns = .ok ()) :
    ∃ es, addConstraints cs p = ⟨.ok (), p.pushRows (cs.map .ofConstraint), es⟩ := by
  obtain ⟨es, hes⟩ := forM_addConstraint hp hcs
  refine ⟨es, ?_⟩
  simp only [addConstraints, Call.state_bind, Call.bind_of_ok (Call.forM_ofExcept hcs p), hes,
    List.nil_append]

theorem addConstraints_refused {cs : List (Constraint α)} {index : Nat}
    (h : cs.findSome? (Constraint.beyond? p.columns) = some index) : addConstraints cs p =
      ⟨.error (.error (.missingColumn index p.columns)), p, []⟩ := by
  have hchecks := Call.forM_ofExcept_first (υ := Event α)
    (fun c => Constraint.checkColumns_eq c p.columns) h p
  simp only [addConstraints, Call.state_bind, Call.bind_of_error hchecks]

theorem forM_pushDense {rows : List (List α × α × Sense)}
    (hrows : ∀ r ∈ rows, r.1.length = p.matrix.columns) :
    (rows.forM fun (row, b, sense) => do
      onMatrix (SparseMatrix.pushDense row)
      Call.modify (pushRowData b sense none)) p = ⟨.ok (), p.pushRows (rows.map .ofDense), []⟩ := by
  induction rows generalizing p with
  | nil => rfl
  | cons r rows ih =>
    obtain ⟨row, b, sense⟩ := r
    have hrow : row.length = p.matrix.columns := hrows (row, b, sense) (by simp)
    have hpush : (do
        onMatrix (SparseMatrix.pushDense row)
        Call.modify (pushRowData b sense none) : ProblemCall α Unit) p =
        ⟨.ok (), p.pushRow (.ofDense (row, b, sense)), []⟩ :=
      Call.bind_of_ok (onMatrix_of_ok (SparseMatrix.pushDense_apply hrow)) _
    have hrest := ih (p := p.pushRow (.ofDense (row, b, sense))) fun r hr =>
      hrows r (by simp [hr])
    rw [Call.forM_cons]
    exact Call.bind_eq hpush hrest

structure RowsFit (p : Problem α) (rows : List (List α)) (rhs : List α) (senses : List Sense) :
    Prop where
  rhs : rhs.length = rows.length
  senses : senses.length = rows.length
  rows : ∀ row ∈ rows, row.length = p.columns

theorem addRows_apply (hp : p.matrix.columns = p.columns) {rows : List (List α)} {rhs : List α}
    {senses : List Sense} (h : p.RowsFit rows rhs senses) :
    addRows rows rhs senses p =
      ⟨.ok (), p.pushRows ((rows.zip (rhs.zip senses)).map .ofDense), []⟩ := by
  have hfind : rows.find? (·.length != p.columns) = none := by simpa using h.rows
  have hrows : ∀ r ∈ rows.zip (rhs.zip senses), r.1.length = p.matrix.columns := by
    intro r hr
    rw [hp]
    exact h.rows r.1 (List.of_mem_zip hr).1
  simp only [addRows, Call.state_bind, h.rhs, h.senses, beq_self_eq_true, Bool.and_self,
    Call.require_true, Call.pure_bind, hfind]
  exact forM_pushDense hrows

theorem addRows_refused {rows : List (List α)} {rhs : List α} {senses : List Sense}
    (h : ¬ p.RowsFit rows rhs senses) : ∃ e, addRows rows rhs senses p =
      ⟨.error (.error e), p, []⟩ := by
  by_cases hl : rhs.length = rows.length ∧ senses.length = rows.length
  · cases hfind : rows.find? (·.length != p.columns) with
    | none => exact absurd ⟨hl.1, hl.2, by simpa using hfind⟩ h
    | some row =>
      refine ⟨.length .matrixRow p.columns row.length, ?_⟩
      simp [addRows, hl.1, hl.2, hfind]
  · have hb : (rhs.length == rows.length && senses.length == rows.length) = false := by
      simpa using hl
    refine ⟨.length .rowData rows.length (min rhs.length senses.length), ?_⟩
    simp only [addRows, Call.state_bind, hb, Call.require_false, Call.fail_bind]

end Problem

end LinProg
