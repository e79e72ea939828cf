import LinProg.Proofs.Matrix.Canonical
import LinProg.Proofs.Problem.RowChange

namespace LinProg

inductive ProblemChange (α : Type) where
  | kind (kind : ProblemKind)
  | direction (direction : Direction)
  | objective (values : List α)
  | lower (values : List α)
  | upper (values : List α)
  | kinds (kinds : List ColumnKind)
  | bounds (column : Nat) (lower upper : α)
  | define (column : Nat) (definition : Column α)
  | matrix (data : MatrixData α)
  | rhs (values : List α)
  | senses (senses : List Sense)
  | ranges (values : Option (List α))
  | rows (change : RowChange α)

variable {α : Type} [Scalar α]

def ProblemChange.call : ProblemChange α → ProblemCall α Unit
  | kind k => Call.modify (·.withKind k)
  | direction d => Call.modify (·.withDirection d)
  | objective values => Call.modify (·.withObjective values)
  | lower values => Call.modify (·.withLower values)
  | upper values => Call.modify (·.withUpper values)
  | kinds ks => Call.modify (·.withKinds ks)
  | bounds column l u => Problem.setBounds column l u
  | define column definition => Problem.defineColumn column definition
  | matrix data => Problem.setMatrix data
  | rhs values => Call.modify (·.withRhs values)
  | senses ss => Call.modify (·.withSenses ss)
  | ranges values => Call.modify (·.withRanges values)
  | rows change => change.call

namespace Problem

inductive Built : Problem α → Prop
  | empty {rows columns : Nat} {p : Problem α} (h : Problem.empty rows columns = .ok p) : Built p
  | call {p : Problem α} (h : Built p) (change : ProblemChange α) : Built (change.call p).state

def MatrixFits (p : Problem α) : Prop :=
  p.matrix.Fits p.columns

theorem MatrixFits.of_eq {p q : Problem α} (h : p.MatrixFits) (hm : q.matrix = p.matrix)
    (hc : q.columns = p.columns) : q.MatrixFits := by
  rw [MatrixFits, hm, hc]
  exact h

theorem MatrixFits.terms {p : Problem α} {rows : List (ModelRow α)} (h : p.MatrixFits)
    (hrows : p.HasRows rows) {r : ModelRow α} (hr : r ∈ rows) : r.terms.Fits p.columns := by
  refine h.rows r.terms ?_
  rw [← hrows.terms]
  exact List.mem_map_of_mem hr

theorem keeps_modify {f : Problem α → Problem α} (hm : ∀ p, (f p).matrix = p.matrix)
    (hc : ∀ p, (f p).columns = p.columns) :
    Call.Preserves MatrixFits (Call.modify f : ProblemCall α Unit) :=
  Call.keeps_modify fun _ p h => h.of_eq (hm p) (hc p)

theorem keeps_modify? {f : Problem α → Option (Problem α)}
    (h : ∀ p q, f p = some q → q.matrix = p.matrix ∧ q.columns = p.columns) :
    Call.Preserves MatrixFits (Call.modify? f : ProblemCall α Unit) := by
  intro r p hp
  rw [Call.modify?]
  cases hf : f p with
  | none => exact hp
  | some q => exact hp.of_eq (h p q hf).1 (h p q hf).2

theorem keeps_onMatrix {c : MatrixCall (Event α) α Unit}
    (hc : ∀ n, Call.Preserves (SparseMatrix.Fits n) c) :
    Call.Preserves MatrixFits (onMatrix c) :=
  Call.keeps_on (fun _ => rfl) fun p => hc p.columns

theorem keeps_setBounds (column : Nat) (lower upper : α) :
    Call.Preserves MatrixFits (setBounds column lower upper) := by
  refine Call.keeps_state_bind fun p => ?_
  refine Call.keeps_bind (Call.keeps_ofExcept _) fun _ => ?_
  refine keeps_modify? fun p q hq => ?_
  simp only [Option.bind_eq_bind, Option.bind_eq_some_iff, Option.pure_def, Option.some.injEq] at hq
  obtain ⟨l, -, u, -, rfl⟩ := hq
  exact ⟨rfl, rfl⟩

theorem keeps_defineColumn (column : Nat) (definition : Column α) :
    Call.Preserves MatrixFits (defineColumn column definition) := by
  refine Call.keeps_state_bind fun p => ?_
  refine Call.keeps_bind (Call.keeps_ofExcept _) fun _ => ?_
  refine keeps_modify? fun p q hq => ?_
  simp only [Option.bind_eq_bind, Option.bind_eq_some_iff, Option.pure_def, Option.some.injEq] at hq
  obtain ⟨l, -, u, -, k, -, o, -, rfl⟩ := hq
  exact ⟨rfl, rfl⟩

theorem fits_toMatrix {data : MatrixData α} {n : Nat} {m : SparseMatrix α}
    (h : data.toMatrix n = .ok m) : m.Fits n := by
  cases data with
  | dense rows => exact SparseMatrix.fits_ofDense h
  | triples rows columns entries =>
    rw [MatrixData.toMatrix] at h
    split at h
    · rename_i hc
      subst hc
      exact SparseMatrix.fits_ofTriples h
    · simp at h

theorem keeps_setMatrix (data : MatrixData α) : Call.Preserves MatrixFits (setMatrix data) := by
  intro r p hp
  cases hm : data.toMatrix p.columns with
  | ok m => simpa [setMatrix, hm, MatrixFits] using fits_toMatrix hm
  | error f => simpa [setMatrix, hm] using hp

theorem keeps_addConstraint (c : Constraint α) : Call.Preserves MatrixFits (addConstraint c) := by
  refine Call.keeps_state_bind fun p => ?_
  refine Call.keeps_bind (Call.keeps_ofExcept _) fun _ => ?_
  refine Call.keeps_bind (keeps_onMatrix fun _ => SparseMatrix.keeps_pushTerms c.terms) fun _ => ?_
  refine Call.keeps_bind (keeps_modify (fun _ => rfl) fun _ => rfl) fun _ => ?_
  refine Call.keeps_state_bind fun p => ?_
  exact Call.keeps_bind (Call.keeps_ofOption _) fun _ => Call.keeps_emit fun _ => rfl

theorem keeps_addConstraints (cs : List (Constraint α)) :
    Call.Preserves MatrixFits (addConstraints cs) := by
  refine Call.keeps_state_bind fun p => ?_
  refine Call.keeps_bind (Call.keeps_forM fun c _ => Call.keeps_ofExcept _) fun _ => ?_
  exact Call.keeps_forM fun c _ => keeps_addConstraint c

theorem keeps_addComparison (first : Nat) (sense : Sense) (second : Nat) :
    Call.Preserves MatrixFits (addComparison first sense second : ProblemCall α Bool) := by
  rw [addComparison]
  cases (Constraint.comparison first sense second : Option (Constraint α)) with
  | none => exact Call.keeps_pure false
  | some c => exact Call.keeps_bind (keeps_addConstraint c) fun _ => Call.keeps_pure true

theorem keeps_addRows (rows : List (List α)) (values : List α) (senses : List Sense) :
    Call.Preserves MatrixFits (addRows rows values senses) := by
  refine Call.keeps_state_bind fun p => ?_
  refine Call.keeps_bind (Call.keeps_require _ _) fun _ => ?_
  cases rows.find? (·.length != p.columns) with
  | some row => exact Call.keeps_fail _
  | none =>
    refine Call.keeps_forM fun row _ => ?_
    refine Call.keeps_bind (keeps_onMatrix fun _ => SparseMatrix.keeps_pushDense row.1) fun _ => ?_
    exact keeps_modify (fun _ => rfl) fun _ => rfl

theorem keeps_removeLast (k : Nat) :
    Call.Preserves MatrixFits (removeLast k : ProblemCall α Unit) :=
  Call.keeps_bind (keeps_onMatrix fun _ => SparseMatrix.keeps_removeLast k) fun _ =>
    keeps_modify (fun _ => rfl) fun _ => rfl

theorem keeps_rows (change : RowChange α) : Call.Preserves MatrixFits change.call := by
  cases change with
  | add c => exact keeps_addConstraint c
  | addList cs => exact keeps_addConstraints cs
  | comparison first sense second =>
    exact Call.keeps_bind (keeps_addComparison first sense second) fun _ => Call.keeps_pure ()
  | bound index sense value => exact keeps_addConstraint (.bound index sense value)
  | dense rows values senses => exact keeps_addRows rows values senses
  | removeLast k => exact keeps_removeLast k
  | coefficient row column value =>
    exact keeps_onMatrix fun _ => SparseMatrix.keeps_set row column value
  | rhs row value =>
    refine Call.keeps_state_bind fun p => ?_
    refine Call.keeps_bind (Call.keeps_require _ _) fun _ => ?_
    exact keeps_modify (fun _ => rfl) fun _ => rfl

theorem keeps_change (change : ProblemChange α) : Call.Preserves MatrixFits change.call := by
  cases change with
  | bounds column lower upper => exact keeps_setBounds column lower upper
  | define column definition => exact keeps_defineColumn column definition
  | matrix data => exact keeps_setMatrix data
  | rows change => exact keeps_rows change
  | _ =>
    rw [ProblemChange.call]
    exact keeps_modify (fun _ => rfl) fun _ => rfl

theorem Built.matrixFits {p : Problem α} (h : p.Built) : p.MatrixFits := by
  induction h with
  | @empty rows columns p h =>
    rw [Problem.empty] at h
    split at h
    · simp at h
    · cases h
      exact SparseMatrix.fits_zero rows columns
  | call h change ih => exact (keeps_change change).state ih

end Problem

end LinProg
