import LinProg.Matrix.Basic
import LinProg.Proofs.Call
import LinProg.Proofs.Place

namespace LinProg

namespace SparseMatrix

variable {υ α : Type}

theorem eq_of_parts {m m' : SparseMatrix α} (hc : m.columns = m'.columns) (hr : m.rows = m'.rows) :
    m = m' := by
  cases m
  cases m'
  exact congrArg₂ _ hc hr

def withRows (m : SparseMatrix α) (rows : List (SparseRow α)) : SparseMatrix α :=
  { m with rows }

@[simp] theorem withRows_rows (m : SparseMatrix α) (rows : List (SparseRow α)) :
    (m.withRows rows).rows = rows := rfl

theorem removeLast_apply {m : SparseMatrix α} {n : Nat} (h : n ≤ m.numRows) :
    (removeLast n : MatrixCall υ α Unit) m =
      ⟨.ok (), m.withRows (m.rows.take (m.numRows - n)), []⟩ := by
  simp [removeLast, h, less?_of_le h, Call.modify?, withRows]

theorem removeLast_refused {m : SparseMatrix α} {n : Nat} (h : m.numRows < n) :
    (removeLast n : MatrixCall υ α Unit) m =
      ⟨.error (.error (.tooFewRows n m.numRows)), m, []⟩ := by
  simp [removeLast, Nat.not_le.2 h]

variable [Scalar α]

theorem set_apply {m : SparseMatrix α} {row column : Nat} (hr : row < m.numRows)
    (hc : column < m.columns) (value : α) :
    (set row column value : MatrixCall υ α Unit) m =
      ⟨.ok (), m.withRows (m.rows.modify row (SparseRow.set · column value)), []⟩ := by
  have hrow : row < m.rows.length := hr
  have hset := set_getElem_eq_modify hrow (SparseRow.set · column value)
  simp [set, checkEntry, hr, hc, Call.modify?, List.getElem?_eq_getElem hrow, place?_of_lt hrow,
    hset, withRows]

theorem set_refused {m : SparseMatrix α} {row column : Nat}
    (h : ¬ (row < m.numRows ∧ column < m.columns)) (value : α) :
    (set row column value : MatrixCall υ α Unit) m =
      ⟨.error (.error (.missingEntry row column m.numRows m.columns)), m, []⟩ := by
  simp [set, checkEntry, h]

theorem pushTerms_apply {m : SparseMatrix α} {terms : List (Nat × α)}
    (h : ∀ t ∈ terms, t.1 < m.columns) :
    (pushTerms terms : MatrixCall υ α Unit) m =
      ⟨.ok (), m.withRows (m.rows ++ [.ofTerms terms]), []⟩ := by
  have hf : terms.find? (m.columns ≤ ·.1) = none := by simpa using h
  simp [pushTerms, hf, pushRow, withRows]

theorem pushTerms_refused {m : SparseMatrix α} {terms : List (Nat × α)}
    (h : ¬ ∀ t ∈ terms, t.1 < m.columns) :
    ∃ index, (pushTerms terms : MatrixCall υ α Unit) m =
      ⟨.error (.error (.missingColumn index m.columns)), m, []⟩ := by
  cases hf : terms.find? (m.columns ≤ ·.1) with
  | none => exact absurd (by simpa using hf) h
  | some t => exact ⟨t.1, by simp [pushTerms, hf]⟩

theorem pushDense_apply {m : SparseMatrix α} {values : List α}
    (h : values.length = m.columns) :
    (pushDense values : MatrixCall υ α Unit) m =
      ⟨.ok (), m.withRows (m.rows ++ [.ofDense values]), []⟩ := by
  simp [pushDense, h, pushRow, withRows]

theorem pushDense_refused {m : SparseMatrix α} {values : List α}
    (h : values.length ≠ m.columns) :
    (pushDense values : MatrixCall υ α Unit) m =
      ⟨.error (.error (.length .matrixRow m.columns values.length)), m, []⟩ := by
  have hb : (values.length == m.columns) = false := by simpa using h
  simp [pushDense, hb]

end SparseMatrix

inductive MatrixChange (α : Type) where
  | set (row column : Nat) (value : α)
  | pushDense (values : List α)
  | pushTerms (terms : List (Nat × α))
  | removeLast (n : Nat)

namespace MatrixChange

variable {υ α : Type} [Scalar α]

def call : MatrixChange α → MatrixCall υ α Unit
  | set row column value => SparseMatrix.set row column value
  | pushDense values => SparseMatrix.pushDense values
  | pushTerms terms => SparseMatrix.pushTerms terms
  | removeLast n => SparseMatrix.removeLast n

theorem call_cases (change : MatrixChange α) (m : SparseMatrix α) :
    (∃ rows, (change.call : MatrixCall υ α Unit) m = ⟨.ok (), m.withRows rows, []⟩) ∨
      ∃ e, (change.call : MatrixCall υ α Unit) m = ⟨.error (.error e), m, []⟩ := by
  cases change with
  | set row column value =>
    by_cases h : row < m.numRows ∧ column < m.columns
    · exact .inl ⟨_, SparseMatrix.set_apply h.1 h.2 value⟩
    · exact .inr ⟨_, SparseMatrix.set_refused h value⟩
  | pushDense values =>
    by_cases h : values.length = m.columns
    · exact .inl ⟨_, SparseMatrix.pushDense_apply h⟩
    · exact .inr ⟨_, SparseMatrix.pushDense_refused h⟩
  | pushTerms terms =>
    by_cases h : ∀ t ∈ terms, t.1 < m.columns
    · exact .inl ⟨_, SparseMatrix.pushTerms_apply h⟩
    · obtain ⟨index, hi⟩ := SparseMatrix.pushTerms_refused (υ := υ) h
      exact .inr ⟨_, hi⟩
  | removeLast n =>
    by_cases h : n ≤ m.numRows
    · exact .inl ⟨_, SparseMatrix.removeLast_apply h⟩
    · exact .inr ⟨_, SparseMatrix.removeLast_refused (Nat.not_le.1 h)⟩

end MatrixChange

end LinProg
