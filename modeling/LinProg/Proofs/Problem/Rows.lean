import LinProg.Problem.Rows
import LinProg.Proofs.Matrix.Basic
import LinProg.Proofs.Place
import LinProg.Session.Basic

/-!
The rows of a problem. A problem keeps its rows in several lists, and it has given rows when these
lists are the columns of their table. Every change of the lists is then one change of the rows and
leaves the frame, which is the rest of the problem, as it was.
-/

namespace LinProg

variable {α : Type}

inductive RowWrite (α : Type) where
  | term (column : Nat) (value : α)
  | rhs (value : α)

namespace RowWrite

def apply [Scalar α] : RowWrite α → ModelRow α → ModelRow α
  | term column value, r => { r with terms := r.terms.set column value }
  | rhs value, r => { r with rhs := value }

def Fits (columns : Nat) : RowWrite α → Prop
  | term column _ => column < columns
  | rhs _ => True

end RowWrite

structure NewRow (α : Type) where
  terms : SparseRow α
  sense : Sense
  rhs : α
  range : Option α

namespace NewRow

def Bare (rs : List (NewRow α)) : Prop :=
  (∃ r ∈ rs, r.sense = .range) ∧ ∀ r ∈ rs, r.range = none

variable [Scalar α]

def ofConstraint (c : Constraint α) : NewRow α :=
  ⟨.ofTerms c.terms, c.sense, c.rhs, c.range⟩

def ofDense (row : List α × α × Sense) : NewRow α :=
  ⟨.ofDense row.1, row.2.2, row.2.1, none⟩

def modelRow (r : NewRow α) : ModelRow α :=
  ⟨r.terms, r.sense, r.rhs, r.range.getD 0⟩

end NewRow

namespace Problem

def frame (p : Problem α) : Problem α :=
  { p with matrix := p.matrix.withRows [], rhs := [], senses := [], ranges := none }

structure ColumnsFit (p : Problem α) : Prop where
  matrix : p.matrix.columns = p.columns
  objective : p.objective.length = p.columns
  lower : p.lower.length = p.columns
  upper : p.upper.length = p.columns
  kinds : p.kinds.length = p.columns

theorem columnsFit_frame {p : Problem α} : p.frame.ColumnsFit ↔ p.ColumnsFit :=
  ⟨fun ⟨hm, ho, hl, hu, hk⟩ => ⟨hm, ho, hl, hu, hk⟩,
    fun ⟨hm, ho, hl, hu, hk⟩ => ⟨hm, ho, hl, hu, hk⟩⟩

theorem ColumnsFit.of_frame {p q : Problem α} (h : p.ColumnsFit) (hq : q.frame = p.frame) :
    q.ColumnsFit := by
  rw [← columnsFit_frame, hq, columnsFit_frame]
  exact h

theorem columns_of_frame {p q : Problem α} (h : q.frame = p.frame) : q.columns = p.columns := by
  change q.frame.columns = p.frame.columns
  rw [h]

def modelWith (p : Problem α) (rows : List (ModelRow α)) : Model α where
  direction := p.direction
  objective := p.objective
  lower := p.lower
  upper := p.upper
  kinds := p.kinds
  rows := rows

theorem modelWith_of_frame {p q : Problem α} (h : q.frame = p.frame)
    (rows : List (ModelRow α)) : q.modelWith rows = p.modelWith rows := by
  change q.frame.modelWith rows = p.frame.modelWith rows
  rw [h]

variable [Scalar α]

/-- Without range values all ranges are 0. -/
structure HasRows (p : Problem α) (rows : List (ModelRow α)) : Prop where
  terms : rows.map (·.terms) = p.matrix.rows
  senses : rows.map (·.sense) = p.senses
  rhs : rows.map (·.rhs) = p.rhs
  ranges : rows.map (·.range) = p.ranges.getD (List.replicate rows.length 0)

namespace HasRows

variable {p : Problem α} {rows : List (ModelRow α)}

theorem numRows (h : p.HasRows rows) : p.numRows = rows.length := by
  simp [Problem.numRows, SparseMatrix.numRows, ← h.terms]

theorem rhs_length (h : p.HasRows rows) : p.rhs.length = rows.length := by
  simp [← h.rhs]

theorem senses_length (h : p.HasRows rows) : p.senses.length = rows.length := by
  simp [← h.senses]

theorem ranges_length (h : p.HasRows rows) {values : List α} (hv : p.ranges = some values) :
    values.length = p.numRows := by
  have hr := congrArg List.length h.ranges
  simpa [hv, h.numRows, eq_comm] using hr

theorem modelRows? (h : p.HasRows rows) : p.modelRows? = some rows := by
  apply mapM_zipIdx_eq_some 0 (by simp [← h.terms])
  intro i terms row hterms hrow
  have ht : row.terms = terms := by simpa [← h.terms, hrow] using hterms
  have hs : p.senses[i]? = some row.sense := by simp [← h.senses, hrow]
  have hb : p.rhs[i]? = some row.rhs := by simp [← h.rhs, hrow]
  have hr : (p.ranges.getD (List.replicate rows.length 0))[i]? = some row.range := by
    simp [← h.ranges, hrow]
  cases hv : p.ranges with
  | none =>
    have h0 : row.range = 0 := by
      rw [hv, Option.getD_none, List.getElem?_replicate] at hr
      split at hr <;> simp_all
    simp [hs, hb, ← ht, ← h0]
  | some values =>
    have hr' : values[i]? = some row.range := by simpa [hv] using hr
    simp [hs, hb, ← ht, hr']

theorem rangeAt (h : p.HasRows rows) {i : Nat} {r : ModelRow α} (hr : rows[i]? = some r) :
    p.rangeAt i = r.range := by
  have hrange : (p.ranges.getD (List.replicate rows.length 0))[i]? = some r.range := by
    simp [← h.ranges, hr]
  cases hv : p.ranges with
  | none =>
    rw [hv, Option.getD_none, List.getElem?_replicate] at hrange
    split at hrange <;> simp_all [Problem.rangeAt]
  | some values => simp_all [Problem.rangeAt]

theorem rowInterval? (h : p.HasRows rows) {i : Nat} {r : ModelRow α} (hr : rows[i]? = some r) :
    p.rowInterval? i = some r.interval := by
  have hs : p.senses[i]? = some r.sense := by simp [← h.senses, hr]
  have hb : p.rhs[i]? = some r.rhs := by simp [← h.rhs, hr]
  simp [Problem.rowInterval?, hs, hb, h.rangeAt hr, ModelRow.interval]

theorem model? (h : p.HasRows rows) : p.model? = some (p.modelWith rows) := by
  simp [Problem.model?, h.modelRows?, modelWith]

theorem eq_of_frame {q : Problem α} (hp : p.HasRows rows) (hq : q.HasRows rows)
    (hf : q.frame = p.frame) : q.withRanges p.ranges = p := by
  have hm : q.matrix = p.matrix :=
    SparseMatrix.eq_of_parts (congrArg (·.matrix.columns) hf) (hq.terms.symm.trans hp.terms)
  have hb : q.rhs = p.rhs := hq.rhs.symm.trans hp.rhs
  have hs : q.senses = p.senses := hq.senses.symm.trans hp.senses
  calc q.withRanges p.ranges
      = { q.frame with
          matrix := q.matrix, rhs := q.rhs, senses := q.senses, ranges := p.ranges } := rfl
    _ = { p.frame with
          matrix := p.matrix, rhs := p.rhs, senses := p.senses, ranges := p.ranges } := by
        rw [hf, hm, hb, hs]
    _ = p := rfl

/-- Range values that came into being later are all 0. -/
theorem ranges_cases {q : Problem α} (hp : p.HasRows rows) (hq : q.HasRows rows)
    (hnone : q.ranges = none → p.ranges = none) : q.ranges = p.ranges ∨
      p.ranges = none ∧ q.ranges = some (List.replicate p.numRows 0) := by
  have heq := hq.ranges.symm.trans hp.ranges
  cases hqr : q.ranges with
  | none => exact .inl (hnone hqr).symm
  | some values =>
    rw [hqr, Option.getD_some] at heq
    cases hpr : p.ranges with
    | none => exact .inr ⟨rfl, by rw [heq, hpr, hp.numRows]; rfl⟩
    | some values' => exact .inl (by rw [heq, hpr]; rfl)

theorem rowInterval?_eq (h : p.HasRows rows) (row : Nat) :
    p.rowInterval? row = rows[row]?.map ModelRow.interval := by
  cases hr : rows[row]? with
  | some r => exact h.rowInterval? hr
  | none =>
    have hs : p.senses[row]? = none := by
      rw [← h.senses, List.getElem?_map, hr]
      rfl
    simp [Problem.rowInterval?, hs]

end HasRows

def pushRow (p : Problem α) (r : NewRow α) : Problem α :=
  pushRowData r.rhs r.sense r.range
    { p with matrix := p.matrix.withRows (p.matrix.rows ++ [r.terms]) }

def pushRows (p : Problem α) (rs : List (NewRow α)) : Problem α :=
  rs.foldl pushRow p

def dropLast (n : Nat) (p : Problem α) : Problem α :=
  { p with
    matrix := p.matrix.withRows (p.matrix.rows.take (p.numRows - n))
    rhs := p.rhs.take (p.numRows - n)
    senses := p.senses.take (p.numRows - n)
    ranges := p.ranges.map (·.take (p.numRows - n)) }

theorem pushRows_append (p : Problem α) (rs rs' : List (NewRow α)) :
    p.pushRows (rs ++ rs') = (p.pushRows rs).pushRows rs' := by
  simp [pushRows]

@[simp] theorem frame_pushRows (p : Problem α) (rs : List (NewRow α)) :
    (p.pushRows rs).frame = p.frame := by
  induction rs generalizing p with
  | nil => rfl
  | cons r rs ih => exact ih (p.pushRow r)

omit [Scalar α] in
@[simp] theorem frame_dropLast (n : Nat) (p : Problem α) : (p.dropLast n).frame = p.frame := rfl

@[simp] theorem ranges_pushRow_eq_none {p : Problem α} {r : NewRow α} :
    (p.pushRow r).ranges = none ↔ p.ranges = none ∧ r.range = none := by
  cases hp : p.ranges <;> cases hr : r.range <;> simp [pushRow, pushRowData, extendRanges, hp, hr]

theorem ranges_pushRows_eq_none {p : Problem α} {rs : List (NewRow α)} :
    (p.pushRows rs).ranges = none ↔ p.ranges = none ∧ ∀ r ∈ rs, r.range = none := by
  induction rs generalizing p with
  | nil => simp [pushRows]
  | cons r rs ih =>
    change ((p.pushRow r).pushRows rs).ranges = none ↔ _
    simp [ih, and_assoc]

theorem senses_pushRows (p : Problem α) (rs : List (NewRow α)) :
    (p.pushRows rs).senses = p.senses ++ rs.map (·.sense) := by
  induction rs generalizing p with
  | nil => simp [pushRows]
  | cons r rs ih =>
    change ((p.pushRow r).pushRows rs).senses = _
    simp [ih, pushRow, pushRowData]

theorem HasRows.pushRow {p : Problem α} {rows : List (ModelRow α)} (h : p.HasRows rows)
    (r : NewRow α) : (p.pushRow r).HasRows (rows ++ [r.modelRow]) where
  terms := by simp [Problem.pushRow, pushRowData, NewRow.modelRow, ← h.terms]
  senses := by simp [Problem.pushRow, pushRowData, NewRow.modelRow, ← h.senses]
  rhs := by simp [Problem.pushRow, pushRowData, NewRow.modelRow, ← h.rhs]
  ranges := by
    have hr := h.ranges
    simp only [Problem.pushRow, pushRowData, NewRow.modelRow, h.rhs_length]
    cases hv : p.ranges with
    | some values => simpa [extendRanges, hv] using hr
    | none =>
      cases r.range with
      | none => simp_all [extendRanges, List.replicate_succ']
      | some r => simp_all [extendRanges]

theorem HasRows.pushRows {p : Problem α} {rows : List (ModelRow α)} (h : p.HasRows rows)
    (rs : List (NewRow α)) : (p.pushRows rs).HasRows (rows ++ rs.map (·.modelRow)) := by
  induction rs generalizing p rows with
  | nil => simpa [Problem.pushRows] using h
  | cons r rs ih =>
    change ((p.pushRow r).pushRows rs).HasRows _
    simpa using ih (h.pushRow r)

theorem HasRows.dropLast {p : Problem α} {rows : List (ModelRow α)} (h : p.HasRows rows)
    (n : Nat) : (p.dropLast n).HasRows (rows.take (rows.length - n)) where
  terms := by simp [Problem.dropLast, h.numRows, ← h.terms]
  senses := by simp [Problem.dropLast, h.numRows, ← h.senses]
  rhs := by simp [Problem.dropLast, h.numRows, ← h.rhs]
  ranges := by
    have hr := congrArg (List.take (rows.length - n)) h.ranges
    cases hv : p.ranges <;>
      simp_all [Problem.dropLast, h.numRows, List.map_take, List.take_replicate]

theorem HasRows.dropLast_zero {p : Problem α} {rows : List (ModelRow α)} (h : p.HasRows rows) :
    p.dropLast 0 = p := by
  have hm : p.matrix.rows.take p.numRows = p.matrix.rows := List.take_length
  have hb : p.rhs.take p.numRows = p.rhs :=
    List.take_of_length_le (by simp [h.numRows, h.rhs_length])
  have hs : p.senses.take p.numRows = p.senses :=
    List.take_of_length_le (by simp [h.numRows, h.senses_length])
  have hr : p.ranges.map (·.take p.numRows) = p.ranges := by
    cases hv : p.ranges with
    | none => rfl
    | some values => simp [← h.ranges_length hv]
  simp [Problem.dropLast, SparseMatrix.withRows, hm, hb, hs, hr]

def writeRow (row : Nat) : RowWrite α → Problem α → Problem α
  | .term column value, p =>
    { p with
      matrix := p.matrix.withRows (p.matrix.rows.modify row (SparseRow.set · column value)) }
  | .rhs value, p => { p with rhs := p.rhs.set row value }

/-- Only what stands in the rows may differ. -/
structure Rewritten (p q : Problem α) : Prop where
  frame : q.frame = p.frame
  senses : q.senses = p.senses
  ranges : q.ranges = p.ranges

omit [Scalar α] in
theorem Rewritten.refl (p : Problem α) : p.Rewritten p := ⟨rfl, rfl, rfl⟩

omit [Scalar α] in
theorem Rewritten.trans {p q r : Problem α} (h : p.Rewritten q) (h' : q.Rewritten r) :
    p.Rewritten r :=
  ⟨h'.frame.trans h.frame, h'.senses.trans h.senses, h'.ranges.trans h.ranges⟩

theorem writeRow_rewritten (row : Nat) (w : RowWrite α) (p : Problem α) :
    p.Rewritten (p.writeRow row w) := by
  cases w <;> exact ⟨rfl, rfl, rfl⟩

theorem HasRows.writeRow {p : Problem α} {rows : List (ModelRow α)} (h : p.HasRows rows)
    (row : Nat) (w : RowWrite α) : (p.writeRow row w).HasRows (rows.modify row w.apply) where
  terms := by
    cases w with
    | term column value =>
      rw [Problem.writeRow, SparseMatrix.withRows_rows, ← h.terms]
      exact map_modify (by intro r; rfl) rows row
    | rhs value => exact (map_modify_eq (by intro r; rfl) rows row).trans h.terms
  senses := by
    rw [(writeRow_rewritten row w p).senses, ← h.senses]
    exact map_modify_eq (by intro r; cases w <;> rfl) rows row
  rhs := by
    cases w with
    | term column value => exact (map_modify_eq (by intro r; rfl) rows row).trans h.rhs
    | rhs value =>
      rw [Problem.writeRow, ← modify_const, ← h.rhs]
      exact map_modify (by intro r; rfl) rows row
  ranges := by
    rw [(writeRow_rewritten row w p).ranges, List.length_modify, ← h.ranges]
    exact map_modify_eq (by intro r; cases w <;> rfl) rows row

end Problem

end LinProg
