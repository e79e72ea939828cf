import LinProg.Problem.Point
import LinProg.Proofs.Problem.Built
import LinProg.Proofs.Problem.Export

/-!
What a problem looks up in its lists. Each term has a column, but the lists that a problem was given
may be too short for its rows and columns: then there are readings and changes that miss a place.
Where the lists fit together there are none.
-/

namespace LinProg

variable {α : Type} [Scalar α]

theorem SparseRow.isSome_activity {row : SparseRow α} {x : List α}
    (h : ∀ t ∈ row, t.1 < x.length) : (row.activity? x).isSome := by
  have hterms : (row.mapM fun t => x[t.1]?.map (t.2 * ·)).isSome :=
    isSome_mapM.2 fun t ht => by simp [h t ht]
  simpa [SparseRow.activity?] using hterms

theorem SparseRow.isSome_toDense {row : SparseRow α} {n : Nat} (h : ∀ t ∈ row, t.1 < n) :
    (row.toDense? n).isSome := by
  have hzeros : (List.replicate n (0 : α)).length = n := List.length_replicate
  obtain ⟨dense, hdense, -⟩ := foldlM_place? (·.1) (·.2) fun t ht => hzeros.symm ▸ h t ht
  exact Option.isSome_iff_exists.2 ⟨dense, hdense⟩

namespace SparseMatrix

omit [Scalar α] in
theorem build_inRange {change : MatrixCall Empty α Unit} {m : SparseMatrix α}
    (h : (change m).InRange) : build change m ≠ .error (.fault .outOfRange) := by
  rw [Reply.InRange] at h
  rw [build]
  cases hr : (change m).result with
  | ok u => simp [Except.map]
  | error f => simpa [hr, Except.map] using h

end SparseMatrix

theorem MatrixChange.call_inRange {υ : Type} (change : MatrixChange α) (m : SparseMatrix α) :
    ((change.call : MatrixCall υ α Unit) m).InRange := by
  obtain ⟨rows, h⟩ | ⟨e, h⟩ := change.call_cases (υ := υ) m
  · exact Call.inRange_of_ok h
  · exact Call.inRange_of_error h

theorem MatrixData.toMatrix_inRange (data : MatrixData α) (columns : Nat) :
    data.toMatrix columns ≠ .error (.fault .outOfRange) := by
  cases data with
  | dense rows =>
    refine SparseMatrix.build_inRange (Call.inRange_forM (fun row m => ?_) _)
    exact (MatrixChange.pushDense row).call_inRange m
  | triples rows cols entries =>
    rw [MatrixData.toMatrix]
    split
    · refine SparseMatrix.build_inRange (Call.inRange_forM (fun t m => ?_) _)
      exact (MatrixChange.set t.1 t.2.1 t.2.2).call_inRange m
    · simp

namespace Problem

variable {p : Problem α}

structure RowsGiven (p : Problem α) : Prop where
  senses : p.numRows ≤ p.senses.length
  rhs : p.numRows ≤ p.rhs.length

omit [Scalar α] in
theorem rowsGiven_iff : p.RowsGiven ↔
    ∀ t ∈ p.matrix.rows.zipIdx, t.2 < p.senses.length ∧ t.2 < p.rhs.length := by
  rw [forall₂_and, forall_snd_zipIdx, forall_snd_zipIdx]
  exact ⟨fun h => ⟨h.senses, h.rhs⟩, fun h => ⟨h.1, h.2⟩⟩

theorem isSome_rowInterval {i : Nat} :
    (p.rowInterval? i).isSome ↔ i < p.senses.length ∧ i < p.rhs.length := by
  rw [rowInterval?]
  by_cases hs : i < p.senses.length
  · by_cases hb : i < p.rhs.length <;> simp [hs, hb]
  · simp [hs]

theorem isSome_exportRow {row : SparseRow α} {i : Nat} :
    (p.exportRow? row i).isSome ↔ i < p.senses.length ∧ i < p.rhs.length := by
  rw [← isSome_rowInterval, exportRow?]
  cases hs : p.senses[i]? with
  | none => simp [rowInterval?, hs]
  | some sense =>
    cases sense with
    | range => cases p.rowInterval? i <;> simp
    | _ => cases hb : p.rhs[i]? <;> simp [rowInterval?, hs, hb]

omit [Scalar α] in
theorem isSome_columnsOf (kind : ColumnKind) :
    (p.columnsOf? kind).isSome ↔ p.columns ≤ p.kinds.length := by
  rw [columnsOf?, isSome_filterM]
  constructor
  · intro h
    by_contra hlt
    have hn : p.kinds.length < p.columns := Nat.lt_of_not_le hlt
    simpa using h _ (List.mem_range.2 hn)
  · intro h c hc
    have hlt : c < p.kinds.length := Nat.lt_of_lt_of_le (List.mem_range.1 hc) h
    simp [hlt]

theorem isSome_text [Numeral α] : p.text?.isSome ↔ p.RowsGiven ∧ p.columns ≤ p.kinds.length := by
  have hrows : (p.matrix.rows.zipIdx.mapM fun t => p.exportRow? t.1 t.2).isSome ↔ p.RowsGiven := by
    simp only [isSome_mapM, isSome_exportRow, rowsGiven_iff]
  have hkinds : (p.columnsOf? .integer).isSome ↔ (p.columnsOf? .binary).isSome := by
    rw [isSome_columnsOf, isSome_columnsOf]
  rw [← hrows, ← isSome_columnsOf .binary, text?, Option.isSome_map, export?]
  cases p.matrix.rows.zipIdx.mapM fun t => p.exportRow? t.1 t.2 with
  | none => simp
  | some rows =>
    cases hi : p.columnsOf? .integer <;> cases hb : p.columnsOf? .binary <;>
      simp [hi, hb] at hkinds ⊢

theorem isSatisfied_outOfRange {x : List α} {tolerance : α} :
    p.isSatisfied x tolerance = .error .outOfRange ↔
      p.maxViolation x = .error (.fault .outOfRange) := by
  rw [isSatisfied]
  cases p.maxViolation x with
  | ok v => simp
  | error f => cases f <;> simp

section Terms

variable (hterms : ∀ row ∈ p.matrix.rows, ∀ t ∈ row, t.1 < p.columns)

include hterms

theorem isSome_rowValues {x : List α} (hx : x.length = p.columns) :
    (p.rowValues? x).isSome ↔ p.RowsGiven := by
  rw [rowValues?, isSome_mapM, rowsGiven_iff]
  refine forall₂_congr fun t ht => ?_
  have hactivity : (t.1.activity? x).isSome := by
    refine SparseRow.isSome_activity fun u hu => ?_
    rw [hx]
    exact hterms t.1 (List.fst_mem_of_mem_zipIdx ht) u hu
  rw [← isSome_rowInterval]
  obtain ⟨a, ha⟩ := Option.isSome_iff_exists.1 hactivity
  cases hi : p.rowInterval? t.2 <;> simp [ha, hi]

theorem maxViolation_outOfRange {x : List α} :
    p.maxViolation x = .error (.fault .outOfRange) ↔ x.length = p.columns ∧ ¬ p.RowsGiven := by
  rw [maxViolation]
  split
  · rename_i hx
    rw [← isSome_rowValues hterms hx]
    cases p.rowValues? x <;> simp [hx]
  · rename_i hx
    simp [hx]

end Terms

/-- What is read off a problem is there exactly as far as its lists go. -/
structure ReadAsGiven [Numeral α] (p : Problem α) : Prop where
  text : p.text?.isSome ↔ p.RowsGiven ∧ p.columns ≤ p.kinds.length
  dense : p.matrix.toDense?.isSome
  violation : ∀ x, p.maxViolation x = .error (.fault .outOfRange) ↔
    x.length = p.columns ∧ ¬ p.RowsGiven
  satisfied : ∀ x tolerance, p.isSatisfied x tolerance = .error .outOfRange ↔
    x.length = p.columns ∧ ¬ p.RowsGiven
  interval : ∀ row, (p.rowInterval? row).isSome ↔ row < p.senses.length ∧ row < p.rhs.length
  row : ∀ row, (p.matrix.row? row).isSome ↔ row < p.numRows

theorem readAsGiven [Numeral α] (hc : p.matrix.columns = p.columns)
    (hterms : ∀ row ∈ p.matrix.rows, ∀ t ∈ row, t.1 < p.columns) : p.ReadAsGiven where
  text := isSome_text
  dense := isSome_mapM.2 fun row hrow => SparseRow.isSome_toDense (hc ▸ hterms row hrow)
  violation _ := maxViolation_outOfRange hterms
  satisfied _ _ := isSatisfied_outOfRange.trans (maxViolation_outOfRange hterms)
  interval _ := isSome_rowInterval
  row _ := by simp [SparseMatrix.row?, numRows, SparseMatrix.numRows]

structure WellFormed (p : Problem α) : Prop extends p.ColumnsFit where
  hasRows : ∃ rows, p.HasRows rows
  terms : ∀ row ∈ p.matrix.rows, ∀ t ∈ row, t.1 < p.columns

theorem wellFormed_of_valid (hm : p.MatrixFits) (hv : p.validate = .ok ()) : p.WellFormed := by
  obtain ⟨hframe, hrows, -⟩ := validate_eq_ok.1 hv
  exact ⟨hframe.toColumnsFit, hrows, fun row hrow => (hm.rows row hrow).bound⟩

structure Readable [Numeral α] (p : Problem α) : Prop where
  text : p.text?.isSome
  dense : p.matrix.toDense?.isSome
  violation : ∀ x, p.maxViolation x ≠ .error (.fault .outOfRange)
  satisfied : ∀ x tolerance, p.isSatisfied x tolerance ≠ .error .outOfRange
  interval : ∀ row, (p.rowInterval? row).isSome ↔ row < p.numRows
  row : ∀ row, (p.matrix.row? row).isSome ↔ row < p.numRows

namespace WellFormed

theorem exists_row (h : p.WellFormed) {i : Nat} (hi : i < p.numRows) :
    ∃ r : ModelRow α, p.senses[i]? = some r.sense ∧ p.rhs[i]? = some r.rhs ∧
      p.rowInterval? i = some r.interval := by
  obtain ⟨rows, hrows⟩ := h.hasRows
  rw [hrows.numRows] at hi
  have hr : rows[i]? = some rows[i] := List.getElem?_eq_getElem hi
  exact ⟨rows[i], by simp [← hrows.senses, hr], by simp [← hrows.rhs, hr], hrows.rowInterval? hr⟩

theorem senses_length (h : p.WellFormed) : p.senses.length = p.numRows := by
  obtain ⟨rows, hrows⟩ := h.hasRows
  simp [hrows.numRows, ← hrows.senses]

theorem rhs_length (h : p.WellFormed) : p.rhs.length = p.numRows := by
  obtain ⟨rows, hrows⟩ := h.hasRows
  simp [hrows.numRows, ← hrows.rhs]

theorem rowsGiven (h : p.WellFormed) : p.RowsGiven :=
  ⟨Nat.le_of_eq h.senses_length.symm, Nat.le_of_eq h.rhs_length.symm⟩

theorem maxViolation_inRange (h : p.WellFormed) (x : List α) :
    p.maxViolation x ≠ .error (.fault .outOfRange) := fun hx =>
  ((maxViolation_outOfRange h.terms).1 hx).2 h.rowsGiven

theorem readable [Numeral α] (h : p.WellFormed) : p.Readable where
  text := isSome_text.2 ⟨h.rowsGiven, Nat.le_of_eq h.kinds.symm⟩
  dense := (readAsGiven h.matrix h.terms).dense
  violation := h.maxViolation_inRange
  satisfied x _ hx := h.maxViolation_inRange x (isSatisfied_outOfRange.1 hx)
  interval _ := by rw [isSome_rowInterval, h.senses_length, h.rhs_length, and_self]
  row := (readAsGiven h.matrix h.terms).row

end WellFormed

omit [Scalar α] in
theorem checked_inRange {column : Nat} {f : Problem α → Option (Problem α)} :
    ((do
      Call.ofExcept ((← Call.state).checkColumn column)
      Call.modify? f : ProblemCall α Unit) p).InRange ↔ (column < p.columns → (f p).isSome) := by
  by_cases hc : column < p.columns
  · simp [checkColumn, hc, Call.inRange_modify?]
  · simp [Reply.InRange, checkColumn, hc]

end Problem

namespace ProblemChange

/-- A change of a column of the problem that some list does not have. -/
def Misses (p : Problem α) : ProblemChange α → Prop
  | bounds column _ _ =>
    column < p.columns ∧ ¬ (column < p.lower.length ∧ column < p.upper.length)
  | define column _ =>
    column < p.columns ∧ ¬ (column < p.lower.length ∧ column < p.upper.length ∧
      column < p.kinds.length ∧ column < p.objective.length)
  | _ => False

variable {p : Problem α}

omit [Scalar α] in
theorem not_misses_of_columnsFit (h : p.ColumnsFit) (change : ProblemChange α) :
    ¬ change.Misses p := by
  cases change with
  | bounds | define => simp [Misses, h.lower, h.upper, h.kinds, h.objective]
  | _ => exact id

/-- Changes of columns look up lists of columns; all others check what they look up. -/
theorem inRange_iff (h : p.matrix.columns = p.columns) (change : ProblemChange α) :
    (change.call p).InRange ↔ ¬ change.Misses p := by
  cases change with
  | bounds column lower upper =>
    refine Problem.checked_inRange.trans ?_
    by_cases hl : column < p.lower.length <;> by_cases hu : column < p.upper.length <;>
      simp [Misses, place?, hl, hu]
  | define column definition =>
    refine Problem.checked_inRange.trans ?_
    by_cases hl : column < p.lower.length <;> by_cases hu : column < p.upper.length <;>
      by_cases hk : column < p.kinds.length <;> by_cases ho : column < p.objective.length <;>
      simp [Misses, place?, hl, hu, hk, ho]
  | matrix data =>
    refine iff_of_true ?_ id
    refine Call.inRange_bind (Call.inRange_of_ok (Call.state_apply p)) fun q _ => ?_
    have hmatrix := data.toMatrix_inRange q.columns
    refine Call.inRange_bind (Call.inRange_ofResult hmatrix _) fun m _ => ?_
    exact Call.inRange_of_ok (Call.modify_apply _ _)
  | rows change =>
    refine iff_of_true ?_ id
    obtain ⟨es, hcall⟩ | ⟨e, hcall⟩ := change.call_cases_of_columns h
    · exact Call.inRange_of_ok hcall
    · exact Call.inRange_of_error hcall
  | _ => exact iff_of_true (Call.inRange_of_ok rfl) id

end ProblemChange

namespace Problem

variable {p : Problem α}

def after (p : Problem α) (changes : List (ProblemChange α)) : Problem α :=
  changes.foldl (fun p change => (change.call p).state) p

theorem Built.after (h : p.Built) (changes : List (ProblemChange α)) : (p.after changes).Built := by
  induction changes generalizing p with
  | nil => exact h
  | cons change changes ih => exact ih (h.call change)

theorem MatrixFits.readAsGiven [Numeral α] (h : p.MatrixFits) : p.ReadAsGiven :=
  Problem.readAsGiven h.columns fun row hrow => (h.rows row hrow).bound

end Problem

end LinProg
