import LinProg.Proofs.Matrix.Columns
import LinProg.Proofs.Scalar.Binary

namespace LinProg.SparseMatrix

variable {υ α : Type} [Scalar α] {m : SparseMatrix α} {n : Nat}

open Scalar

theorem get_write (h : m.Fits n) {row : Nat} (hr : row < m.numRows) (column : Nat) (value : α)
    (r c : Nat) : (m.withRows (m.rows.modify row (SparseRow.set · column value))).get r c =
      if r = row ∧ c = column then kept value else m.get r c := by
  rw [get, withRows_rows, List.getElem?_modify]
  by_cases hrow : r = row
  · subst hrow
    have hcanonical := (h.rows _ (List.getElem_mem hr)).canonical
    rw [get_eq_getElem hr, List.getElem?_eq_getElem hr]
    simpa [kept] using SparseRow.get_set hcanonical column value c
  · simp [hrow, Ne.symm hrow, get]

def valuesAt (triples : List (Nat × Nat × α)) (r c : Nat) : List α :=
  (triples.filter fun t => t.1 = r ∧ t.2.1 = c).map (·.2.2)

omit [Scalar α] in
theorem valuesAt_cons (t : Nat × Nat × α) (triples : List (Nat × Nat × α)) (r c : Nat) :
    valuesAt (t :: triples) r c =
      if t.1 = r ∧ t.2.1 = c then t.2.2 :: valuesAt triples r c else valuesAt triples r c := by
  by_cases h : t.1 = r ∧ t.2.1 = c <;> simp [valuesAt, h]

theorem get_foldl_store (h : m.Fits n) {triples : List (Nat × Nat × α)}
    (htriples : ∀ t ∈ triples, t.1 < m.numRows ∧ t.2.1 < n) (r c : Nat) :
    (m.withRows (triples.foldl store m.rows)).get r c =
      ((valuesAt triples r c).getLast?.map kept).getD (m.get r c) := by
  induction triples generalizing m with
  | nil => rfl
  | cons t triples ih =>
    obtain ⟨ht, htriples⟩ := List.forall_mem_cons.1 htriples
    have hstore : (m.withRows (store m.rows t)).Fits n :=
      ⟨h.columns, forall_mem_modify h.rows (fun r hr => hr.set ht.2 t.2.2) t.1⟩
    have hrest := ih hstore (by simpa only [numRows_store] using htriples)
    have hwrite := get_write h ht.1 t.2.1 t.2.2 r c
    rw [List.foldl_cons]
    refine hrest.trans ?_
    rw [store, hwrite, valuesAt_cons]
    by_cases hrc : r = t.1 ∧ c = t.2.1
    · rw [if_pos hrc, if_pos ⟨hrc.1.symm, hrc.2.symm⟩, List.getLast?_cons]
      cases (valuesAt triples r c).getLast? <;> rfl
    · rw [if_neg hrc, if_neg fun h => hrc ⟨h.1.symm, h.2.symm⟩]

theorem length_foldl_store (rows : List (SparseRow α)) (triples : List (Nat × Nat × α)) :
    (triples.foldl store rows).length = rows.length := by
  induction triples generalizing rows with
  | nil => rfl
  | cons t triples ih => rw [List.foldl_cons, ih, store, List.length_modify]

def outside (rows columns : Nat) (t : Nat × Nat × α) : Bool :=
  ¬ (t.1 < rows ∧ t.2.1 < columns)

omit [Scalar α] in
theorem not_outside_iff {rows columns : Nat} {t : Nat × Nat × α} :
    ¬ outside rows columns t = true ↔ t.1 < rows ∧ t.2.1 < columns := by
  rw [outside, decide_eq_true_eq, not_not]

omit [Scalar α] in
theorem numRows_zero (rows columns : Nat) :
    (zero rows columns : SparseMatrix α).numRows = rows := by
  simp [zero, numRows]

theorem forM_set_refused {rows columns : Nat} (hr : m.numRows = rows) (hc : m.columns = columns)
    {triples : List (Nat × Nat × α)} {t : Nat × Nat × α}
    (h : triples.find? (outside rows columns) = some t) :
    ((triples.forM fun (r, c, v) => (set r c v : MatrixCall υ α Unit)) m).result =
      .error (.error (.missingEntry t.1 t.2.1 rows columns)) := by
  induction triples generalizing m with
  | nil => simp at h
  | cons u triples ih =>
    rw [Call.forM_cons]
    by_cases hu : u.1 < rows ∧ u.2.1 < columns
    · rw [List.find?_cons_of_neg (not_outside_iff.2 hu)] at h
      rw [Call.bind_of_ok (set_apply (hr ▸ hu.1) (hc ▸ hu.2) u.2.2)]
      exact ih (m := m.withRows (store m.rows u)) (by rwa [numRows_store]) hc h
    · have hstop : outside rows columns u = true := decide_eq_true hu
      rw [List.find?_cons_of_pos hstop, Option.some.injEq] at h
      rw [← hr, ← hc] at hu ⊢
      rw [Call.bind_of_error (set_refused hu u.2.2), h]

theorem ofTriples_refused {rows columns : Nat} {triples : List (Nat × Nat × α)}
    {t : Nat × Nat × α}
    (h : triples.find? (outside rows columns) = some t) :
    ofTriples rows columns triples = .error (.error (.missingEntry t.1 t.2.1 rows columns)) := by
  have hset := forM_set_refused (υ := Empty) (m := zero rows columns) (numRows_zero rows columns)
    rfl h
  rw [ofTriples, build, hset]
  rfl

theorem get_zero (rows columns r c : Nat) : (zero rows columns : SparseMatrix α).get r c = 0 := by
  rw [get, zero]
  by_cases hr : r < rows
  · rw [List.getElem?_replicate_of_lt hr]
    rfl
  · simp [hr]

theorem ofTriples_apply {rows columns : Nat} {triples : List (Nat × Nat × α)}
    (h : ∀ t ∈ triples, t.1 < rows ∧ t.2.1 < columns) :
    ∃ m, ofTriples rows columns triples = .ok m ∧ m.shape = (rows, columns) ∧
      ∀ r c, m.get r c = ((valuesAt triples r c).getLast?.map kept).getD 0 := by
  refine ⟨_, ofTriples_eq h, ?_, fun r c => ?_⟩
  · rw [shape, numRows, length_foldl_store, List.length_replicate]
  · have hzero : ∀ t ∈ triples, t.1 < (zero rows columns : SparseMatrix α).numRows ∧
        t.2.1 < columns := by rwa [numRows_zero]
    have hget := get_foldl_store (fits_zero rows columns) hzero r c
    rwa [get_zero] at hget

/-- A write inside of the matrix changes what is read at its position and nothing else, and any
other is refused; and a matrix of triples holds the last value of each position, unless one of the
triples lies outside, the first of which is the error. -/
theorem reads_follow_writes :
    (∀ m : SparseMatrix α, m.Built → ∀ row column value,
      if row < m.numRows ∧ column < m.columns then
        ∃ m', (set row column value : MatrixCall υ α Unit) m = ⟨.ok (), m', []⟩ ∧
          m'.shape = m.shape ∧
          ∀ r c, m'.get r c = if r = row ∧ c = column then kept value else m.get r c
      else (set row column value : MatrixCall υ α Unit) m =
        ⟨.error (.error (.missingEntry row column m.numRows m.columns)), m, []⟩) ∧
    ∀ rows columns (triples : List (Nat × Nat × α)),
      match triples.find? (outside rows columns) with
      | some t => ofTriples rows columns triples =
          .error (.error (.missingEntry t.1 t.2.1 rows columns))
      | none => ∃ m', ofTriples rows columns triples = .ok m' ∧ m'.shape = (rows, columns) ∧
          ∀ r c, m'.get r c = ((valuesAt triples r c).getLast?.map kept).getD 0 := by
  constructor
  · intro m h row column value
    split
    · rename_i hin
      exact ⟨_, set_apply hin.1 hin.2 value,
        congrArg (·, m.columns) (numRows_store m (row, column, value)),
        get_write h.fits hin.1 column value⟩
    · rename_i hout
      exact set_refused hout value
  · intro rows columns triples
    split
    · rename_i t ht
      exact ofTriples_refused ht
    · rename_i hnone
      exact ofTriples_apply fun t ht => not_outside_iff.1 (List.find?_eq_none.1 hnone t ht)

/-- The last of three values is a zero with a sign, of which nothing is kept. -/
theorem reads_follow_writes_negative_zero :
    (zero 1 2 : SparseMatrix Float).Built ∧
      (∃ m, (set 0 1 1 : MatrixCall Empty Float Unit) (zero 1 2) = ⟨.ok (), m, []⟩ ∧
        m.get 0 1 = 1 ∧ m.get 0 0 = 0) ∧
      ∃ m, ofTriples 1 2 [(0, 1, 1), (0, 0, 1), (0, 1, (-0 : Float))] = .ok m ∧
        m.get 0 1 = 0 ∧ m.get 0 0 = 1 := by
  have hbuilt : (zero 1 2 : SparseMatrix Float).Built := .zero 1 2
  have hone : kept (1 : Float) = 1 := kept_of_nonzero (by simp [nonzero, LawfulScalar.isZero_one])
  have hzero : kept (-0 : Float) = 0 :=
    kept_of_isZero (by rw [LawfulScalar.isZero_neg, LawfulScalar.isZero_zero])
  obtain ⟨hset, htriples⟩ := reads_follow_writes (υ := Empty) (α := Float)
  obtain ⟨m, hm, -, hget⟩ := hset _ hbuilt 0 1 1
  obtain ⟨m', hm', -, hget'⟩ := htriples 1 2 [(0, 1, 1), (0, 0, 1), (0, 1, -0)]
  exact ⟨hbuilt, ⟨m, hm, (hget 0 1).trans hone, hget 0 0⟩,
    m', hm', (hget' 0 1).trans hzero, (hget' 0 0).trans hone⟩

end LinProg.SparseMatrix
