import LinProg.Proofs.Matrix.Columns
import LinProg.Proofs.Problem.Built

namespace LinProg

variable {α : Type}

namespace Problem

structure ShapeConsistent (p : Problem α) : Prop where
  objective : p.objective.length = p.columns
  lower : p.lower.length = p.columns
  upper : p.upper.length = p.columns
  kinds : p.kinds.length = p.columns
  rhs : p.rhs.length = p.numRows
  senses : p.senses.length = p.numRows
  ranges : ∀ values, p.ranges = some values → values.length = p.numRows

variable [Scalar α]

structure Listed (p : Problem α) (rows : List (ModelRow α)) : Prop extends p.ShapeConsistent where
  hasRows : p.HasRows rows
  matrix : p.MatrixFits

theorem listed_of_built {p : Problem α} (hp : p.Built) (hs : p.ShapeConsistent) :
    ∃ rows, p.Listed rows := by
  obtain ⟨rows, hrows⟩ := exists_hasRows hs.rhs hs.senses hs.ranges
  exact ⟨rows, hs, hrows, hp.matrixFits⟩

namespace Listed

variable {p : Problem α} {rows : List (ModelRow α)}

theorem columnsFit (h : p.Listed rows) : p.ColumnsFit :=
  ⟨h.matrix.columns, h.objective, h.lower, h.upper, h.kinds⟩

theorem terms (h : p.Listed rows) {r : ModelRow α} (hr : r ∈ rows) : r.terms.Fits p.columns :=
  h.matrix.terms h.hasRows hr

theorem of_frame (h : p.Listed rows) {q : Problem α} {rows' : List (ModelRow α)}
    (hframe : q.frame = p.frame) (hrows : q.HasRows rows') (hm : q.MatrixFits) :
    q.Listed rows' := by
  obtain ⟨-, ho, hl, hu, hk⟩ := h.columnsFit.of_frame hframe
  exact ⟨⟨ho, hl, hu, hk, hrows.rhs_length.trans hrows.numRows.symm,
    hrows.senses_length.trans hrows.numRows.symm, fun _ => hrows.ranges_length⟩, hrows, hm⟩

end Listed

/-- The problem after some changes of its rows, whether or not they go through. -/
def afterRows (p : Problem α) (changes : List (RowChange α)) : Problem α :=
  changes.foldl (fun p change => (change.call p).state) p

end Problem

namespace RowChange

instance decidableFits (columns numRows numRhs : Nat) :
    (change : RowChange α) → Decidable (change.Fits columns numRows numRhs)
  | add c => inferInstanceAs (Decidable (∀ t ∈ c.terms, t.1 < columns))
  | addList cs => inferInstanceAs (Decidable (∀ c ∈ cs, ∀ t ∈ c.terms, t.1 < columns))
  | comparison first _ second =>
    inferInstanceAs (Decidable (first ≠ second → first < columns ∧ second < columns))
  | bound index _ _ => inferInstanceAs (Decidable (index < columns))
  | dense rows values senses => inferInstanceAs (Decidable (values.length = rows.length ∧
      senses.length = rows.length ∧ ∀ row ∈ rows, row.length = columns))
  | removeLast n => inferInstanceAs (Decidable (n ≤ numRows))
  | coefficient row column _ => inferInstanceAs (Decidable (row < numRows ∧ column < columns))
  | rhs row _ => inferInstanceAs (Decidable (row < numRhs))

def constraints [Scalar α] : RowChange α → List (Constraint α)
  | add c => [c]
  | addList cs => cs
  | comparison first sense second => (Constraint.comparison first sense second).toList
  | bound index sense value => [.bound index sense value]
  | dense _ _ _ | removeLast _ | coefficient _ _ _ | rhs _ _ => []

def Touches (numRows row : Nat) : RowChange α → Prop
  | removeLast n => numRows - n ≤ row
  | coefficient row' _ _ | rhs row' _ => row = row'
  | add _ | addList _ | comparison _ _ _ | bound _ _ _ | dense _ _ _ => False

variable [Scalar α]

/-- The rows after some changes, of which those that do not fit are left out. -/
def rowsAfter (columns : Nat) (rows : List (ModelRow α)) (changes : List (RowChange α)) :
    List (ModelRow α) :=
  changes.foldl (fun rows change =>
    if change.Fits columns rows.length rows.length then change.onRows rows else rows) rows

theorem settled_listed (change : RowChange α) {p : Problem α} {rows : List (ModelRow α)}
    (h : p.Listed rows) :
    (change.Fits p.columns rows.length rows.length ∧
        (change.call p).result = .ok () ∧ (change.call p).state.Listed (change.onRows rows)) ∨
      ¬ change.Fits p.columns rows.length rows.length ∧
        (∃ e, (change.call p).result = .error (.error e)) ∧ (change.call p).state = p := by
  have hmatrix : (change.call p).state.MatrixFits := (Problem.keeps_rows change).state h.matrix
  have hsettled := change.settled_of_columns h.matrix.columns
  rw [Settled, h.hasRows.rhs_length, h.hasRows.numRows] at hsettled
  obtain ⟨hf, es, hcall⟩ | ⟨hf, e, hcall⟩ := hsettled
  · rw [hcall] at hmatrix ⊢
    exact .inl ⟨hf, rfl,
      h.of_frame (change.frame_effect p) (change.hasRows_effect h.hasRows) hmatrix⟩
  · rw [hcall]
    exact .inr ⟨hf, ⟨e, rfl⟩, rfl⟩

theorem getElem?_onRows (change : RowChange α) {rows : List (ModelRow α)} {row : Nat}
    (ht : ¬ change.Touches rows.length row) {r : ModelRow α} (hr : rows[row]? = some r) :
    (change.onRows rows)[row]? = some r := by
  have hlt : row < rows.length := (List.getElem?_eq_some_iff.1 hr).1
  cases change with
  | removeLast n =>
    have hkept : row < rows.length - n := Nat.not_le.1 ht
    rw [onRows, List.getElem?_take_of_lt hkept, hr]
  | coefficient row' column value =>
    have hne : row' ≠ row := fun h => ht h.symm
    rw [onRows, List.getElem?_modify_ne _ _ hne, hr]
  | rhs row' value =>
    have hne : row' ≠ row := fun h => ht h.symm
    rw [onRows, List.getElem?_modify_ne _ _ hne, hr]
  | add | addList | comparison | bound | dense =>
    exact (List.getElem?_append_left hlt).trans hr

theorem getElem?_onRows_appended (change : RowChange α) (rows : List (ModelRow α)) {i : Nat}
    {c : Constraint α} (hc : change.constraints[i]? = some c) :
    (change.onRows rows)[rows.length + i]? = some (.ofConstraint c) := by
  have happend {cs : List (Constraint α)} (hi : cs[i]? = some c) :
      (rows ++ (cs.map NewRow.ofConstraint).map NewRow.modelRow)[rows.length + i]? =
        some (.ofConstraint c) := by
    rw [List.getElem?_append_right (Nat.le_add_right _ _), Nat.add_sub_cancel_left,
      List.getElem?_map, List.getElem?_map, hi]
    rfl
  cases change with
  | add | addList | comparison | bound => exact happend hc
  | dense | removeLast | coefficient | rhs => simp [constraints] at hc

theorem getElem?_onRows_dense {dense : List (List α)} {values : List α} {senses : List Sense}
    (hv : values.length = dense.length) (hs : senses.length = dense.length)
    (rows : List (ModelRow α)) {i : Nat} {row : List α} (hrow : dense[i]? = some row) :
    ∃ r, ((RowChange.dense dense values senses).onRows rows)[rows.length + i]? = some r ∧
      values[i]? = some r.rhs ∧ senses[i]? = some r.sense ∧ r.range = 0 ∧
      ∀ k v, row[k]? = some v → r.terms.get k = if Scalar.isZero v then 0 else v := by
  have hi : i < dense.length := (List.getElem?_eq_some_iff.1 hrow).1
  obtain ⟨value, hvalue⟩ : ∃ value, values[i]? = some value :=
    ⟨_, List.getElem?_eq_getElem (hv ▸ hi)⟩
  obtain ⟨sense, hsense⟩ : ∃ sense, senses[i]? = some sense :=
    ⟨_, List.getElem?_eq_getElem (hs ▸ hi)⟩
  refine ⟨⟨.ofDense row, sense, value, 0⟩, ?_, hvalue, hsense, rfl, fun k v hk => ?_⟩
  · have hzip : (dense.zip (values.zip senses))[i]? = some (row, value, sense) :=
      List.getElem?_zip_eq_some.2 ⟨hrow, List.getElem?_zip_eq_some.2 ⟨hvalue, hsense⟩⟩
    change (rows ++ _)[rows.length + i]? = _
    rw [List.getElem?_append_right (Nat.le_add_right _ _), Nat.add_sub_cancel_left,
      List.getElem?_map, appended, List.getElem?_map, hzip]
    rfl
  · rw [SparseRow.get_ofDense, hk]
    rfl

theorem frame_call (change : RowChange α) {p : Problem α} (hp : p.matrix.columns = p.columns) :
    (change.call p).state.frame = p.frame := by
  obtain ⟨es, hcall⟩ | ⟨e, hcall⟩ := change.call_cases_of_columns hp
  · rw [hcall]
    exact change.frame_effect p
  · rw [hcall]

theorem listed_call (change : RowChange α) {p : Problem α} {rows : List (ModelRow α)}
    (h : p.Listed rows) : (change.call p).state.Listed
      (if change.Fits p.columns rows.length rows.length then change.onRows rows else rows) := by
  obtain ⟨hf, -, hlisted⟩ | ⟨hf, -, hstate⟩ := change.settled_listed h
  · rw [if_pos hf]
    exact hlisted
  · rw [if_neg hf, hstate]
    exact h

theorem listed_afterRows {p : Problem α} {rows : List (ModelRow α)} (h : p.Listed rows)
    (changes : List (RowChange α)) :
    (p.afterRows changes).Listed (rowsAfter p.columns rows changes) ∧
      (p.afterRows changes).frame = p.frame := by
  induction changes generalizing p rows with
  | nil => exact ⟨h, rfl⟩
  | cons change changes ih =>
    have hframe := change.frame_call h.matrix.columns
    obtain ⟨hlisted, hrest⟩ := ih (change.listed_call h)
    rw [Problem.columns_of_frame hframe] at hlisted
    exact ⟨hlisted, hrest.trans hframe⟩

/-- A change of a problem is the change of the list of rows that it stands for. It goes through
exactly if it fits; rows that it is not about keep their places and intervals, and new ones have
the intervals of their constraints. -/
structure Refines (change : RowChange α) (p : Problem α) (rows : List (ModelRow α)) : Prop where
  goesThrough : (change.call p).result = .ok () ↔ change.Fits p.columns rows.length rows.length
  made : (change.call p).result = .ok () →
    (change.call p).state.modelRows? = some (change.onRows rows)
  refused : (change.call p).result ≠ .ok () → (change.call p).state = p
  frame : (change.call p).state.frame = p.frame
  shape : (change.call p).state.ShapeConsistent
  spared : (change.call p).result = .ok () → ∀ row r, rows[row]? = some r →
    ¬ change.Touches rows.length row → (change.onRows rows)[row]? = some r ∧
      (change.call p).state.rowInterval? row = p.rowInterval? row
  intervals : (change.call p).result = .ok () → ∀ i c, change.constraints[i]? = some c →
    (change.call p).state.rowInterval? (rows.length + i) = some c.interval

theorem refines (change : RowChange α) {p : Problem α} {rows : List (ModelRow α)}
    (h : p.Listed rows) : change.Refines p rows := by
  have hframe := change.frame_call h.matrix.columns
  obtain ⟨hf, hok, hlisted⟩ | ⟨hf, ⟨e, he⟩, hstate⟩ := change.settled_listed h
  · refine ⟨iff_of_true hok hf, fun _ => hlisted.hasRows.modelRows?, fun hno => absurd hok hno,
      hframe, hlisted.toShapeConsistent, fun _ row r hr ht => ?_, fun _ i c hc => ?_⟩
    · have hr' := change.getElem?_onRows ht hr
      exact ⟨hr', by rw [hlisted.hasRows.rowInterval? hr', h.hasRows.rowInterval? hr]⟩
    · exact hlisted.hasRows.rowInterval? (change.getElem?_onRows_appended rows hc)
  · have hno : (change.call p).result ≠ .ok () := by simp [he]
    refine ⟨iff_of_false hno hf, fun hok => absurd hok hno, fun _ => hstate, hframe, ?_,
      fun hok => absurd hok hno, fun hok => absurd hok hno⟩
    rw [hstate]
    exact h.toShapeConsistent

end RowChange

namespace Problem

variable [Scalar α] {p : Problem α}

theorem Listed.get_onRows_coefficient {rows : List (ModelRow α)} (h : p.Listed rows)
    {row : Nat} {r : ModelRow α} (hr : rows[row]? = some r) (column : Nat) (value : α) :
    ∃ terms, ((RowChange.coefficient row column value).onRows rows)[row]? =
        some { r with terms } ∧
      ∀ k, terms.get k =
        if k = column then if Scalar.isZero value then 0 else value else r.terms.get k := by
  have hterms := h.terms (List.mem_of_getElem? hr)
  refine ⟨r.terms.set column value, ?_, SparseRow.get_set hterms.canonical column value⟩
  rw [RowChange.onRows, List.getElem?_modify_eq, hr]
  rfl

/-- A problem whose lists fit together is a list of rows, and stays one through all changes of its
rows: each of them changes the list as it says, and nothing else. What is set and what full rows
bring is read off the columns of the rows afterwards. -/
theorem refines_list_of_rows (hp : p.Built) (hs : p.ShapeConsistent) :
    ∃ rows, p.modelRows? = some rows ∧ ∀ changes : List (RowChange α),
      let q := p.afterRows changes
      let rows' := RowChange.rowsAfter p.columns rows changes
      q.modelRows? = some rows' ∧ q.frame = p.frame ∧ q.ShapeConsistent ∧
        (∀ r ∈ rows', r.terms.Fits p.columns) ∧
        (∀ row, q.rowInterval? row = rows'[row]?.map ModelRow.interval) ∧
        (∀ change : RowChange α, change.Refines q rows') ∧
        (∀ row r column value, rows'[row]? = some r →
          ∃ terms, ((RowChange.coefficient row column value).onRows rows')[row]? =
              some { r with terms } ∧
            ∀ k, SparseRow.get terms k =
              if k = column then if Scalar.isZero value then 0 else value else r.terms.get k) ∧
        ∀ dense values senses, values.length = dense.length → senses.length = dense.length →
          ∀ i row, dense[i]? = some row →
            ∃ r, ((RowChange.dense dense values senses).onRows rows')[rows'.length + i]? = some r ∧
              values[i]? = some r.rhs ∧ senses[i]? = some r.sense ∧ r.range = 0 ∧
              ∀ k v, row[k]? = some v → r.terms.get k = if Scalar.isZero v then 0 else v := by
  obtain ⟨rows, hrows⟩ := listed_of_built hp hs
  refine ⟨rows, hrows.hasRows.modelRows?, fun changes => ?_⟩
  obtain ⟨h, hframe⟩ := RowChange.listed_afterRows hrows changes
  intro q rows'
  have hcolumns : q.columns = p.columns := columns_of_frame hframe
  refine ⟨h.hasRows.modelRows?, hframe, h.toShapeConsistent, fun r hr => ?_,
    h.hasRows.rowInterval?_eq, fun change => change.refines h,
    fun row r column value hr => h.get_onRows_coefficient hr column value,
    fun dense values senses hv hs i row hrow => ?_⟩
  · rw [← hcolumns]
    exact h.terms hr
  · exact RowChange.getElem?_onRows_dense hv hs rows' hrow

def oneEquation : Problem Extended where
  columns := 1
  kind := .linear
  direction := .maximise
  objective := [0]
  lower := [.negInf]
  upper := [.posInf]
  kinds := [.continuous]
  matrix := .zero 1 1
  rhs := [0]
  senses := [.equal]
  ranges := none

/-- The second row brings the range values into being, the third finds no such row, and the last
one of two is removed again. -/
theorem oneEquation_refines_list :
    let changes : List (RowChange Extended) := [.coefficient 0 0 1,
      .add ⟨[(0, 1)], .range, 1, some 1⟩, .coefficient 2 0 1,
      .dense [[-1], [1]] [1, 0] [.lessEq, .greaterEq], .removeLast 1, .rhs 0 1]
    let rows : List (ModelRow Extended) :=
      [⟨[(0, 1)], .equal, 1, 0⟩, ⟨[(0, 1)], .range, 1, 1⟩, ⟨[(0, -1)], .lessEq, 1, 0⟩]
    oneEquation.Built ∧ oneEquation.ShapeConsistent ∧
      (oneEquation.afterRows changes).modelRows? = some rows ∧
      (oneEquation.afterRows changes).rowInterval? 0 = some (1, 1) ∧
      (RowChange.removeLast 4 : RowChange Extended).Refines (oneEquation.afterRows changes) rows ∧
      ∃ r, ((RowChange.dense [[-1]] [0] [.equal]).onRows rows)[3]? = some r ∧
        r.terms.get 0 = (-1 : Extended) := by
  intro changes rows
  have hempty : Problem.empty 1 1 = .ok oneEquation := rfl
  have hbuilt : oneEquation.Built := .empty hempty
  have hshape : oneEquation.ShapeConsistent :=
    ⟨rfl, rfl, rfl, rfl, rfl, rfl, fun _ h => by cases h⟩
  obtain ⟨start, hstart, hrun⟩ := refines_list_of_rows hbuilt hshape
  obtain rfl : start = [⟨[], .equal, 0, 0⟩] := Option.some.inj (hstart.symm.trans rfl)
  obtain ⟨hrows, -, -, -, hintervals, hchange, -, hdense⟩ := hrun changes
  have heq : RowChange.rowsAfter oneEquation.columns [⟨[], .equal, 0, 0⟩] changes = rows := by
    decide +kernel
  rw [heq] at hrows hintervals hchange hdense
  obtain ⟨r, hr, -, -, -, hterms⟩ := hdense [[-1]] [0] [.equal] rfl rfl 0 [-1] rfl
  exact ⟨hbuilt, hshape, hrows, hintervals 0, hchange (.removeLast 4), r, hr, hterms 0 (-1) rfl⟩

end Problem

end LinProg
