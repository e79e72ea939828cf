import LinProg.Proofs.Binding.Reachable
import LinProg.Proofs.Problem.Built

namespace LinProg

variable {α : Type} [Scalar α]

theorem MatrixChange.atomicAt {υ : Type} (change : MatrixChange α) (m : SparseMatrix α) :
    (change.call : MatrixCall υ α Unit).AtomicAt m := by
  obtain ⟨rows, h⟩ | ⟨e, h⟩ := change.call_cases (υ := υ) m
  · exact Call.atomicAt_of_ok h
  · exact Call.atomicAt_of_error h

namespace Problem

omit [Scalar α] in
theorem checked_atomicAt (column : Nat) (f : Problem α → Option (Problem α)) (p : Problem α) :
    (do
      Call.ofExcept ((← Call.state).checkColumn column)
      Call.modify? f : ProblemCall α Unit).AtomicAt p := by
  by_cases hc : column < p.columns
  · simpa [Call.AtomicAt, checkColumn, hc] using Call.atomicAt_modify? f p
  · intro e _
    simp [checkColumn, hc]

theorem setMatrix_atomicAt (data : MatrixData α) (p : Problem α) :
    (setMatrix data).AtomicAt p := by
  cases hm : data.toMatrix p.columns with
  | ok m =>
    intro e he
    simp [setMatrix, hm] at he
  | error f =>
    intro e _
    simp [setMatrix, hm]

end Problem

theorem ProblemChange.atomicAt {p : Problem α} (hp : p.matrix.columns = p.columns)
    (change : ProblemChange α) : change.call.AtomicAt p := by
  cases change with
  | bounds column lower upper => exact Problem.checked_atomicAt column _ p
  | define column definition => exact Problem.checked_atomicAt column _ p
  | matrix data => exact Problem.setMatrix_atomicAt data p
  | rows change =>
    obtain ⟨es, h⟩ | ⟨e, h⟩ := change.call_cases_of_columns hp
    · exact Call.atomicAt_of_ok h
    · exact Call.atomicAt_of_error h
  | _ => exact Call.atomicAt_of_ok rfl

namespace Binding

/-- A change that fails has changed nothing: of a matrix, of a problem whether or not it is valid,
or of a binding. On a binding a change goes through exactly if all that it asks for is there, and
then all of it is made; wherever in a list the first bad member stands, nothing is. -/
theorem failed_change_is_no_change (B : Backend α) :
    (∀ (m : SparseMatrix α) (change : MatrixChange α),
      (change.call : MatrixCall (Event α) α Unit).AtomicAt m) ∧
    (∀ (p : Problem α) (change : ProblemChange α), p.Built → change.call.AtomicAt p) ∧
    (∀ (b : Binding B) (c : Command α), b.Reachable → (∀ p, c ≠ .probe p) →
      c.call.AtomicAt b ∧
      (c.Fits b → ∃ a b' es, c.call b = ⟨.ok a, b', es⟩ ∧
        b'.session.model.rows = c.rowsAfter b.session.model.rows) ∧
      (¬ c.Fits b → ∃ e, c.call b = ⟨.error (.error e), b, []⟩)) := by
  refine ⟨fun m change => change.atomicAt m, ?_, ?_⟩
  · intro p change hp
    exact change.atomicAt hp.matrixFits.columns
  · intro b c hb hc
    obtain ⟨hfits, a, b', es, hcall, -, hrows⟩ | ⟨hfits, e, hcall⟩ := c.settled hb.aligned hc
    · exact ⟨Call.atomicAt_of_ok hcall, fun _ => ⟨a, b', es, hcall, hrows⟩,
        fun hno => absurd hfits hno⟩
    · exact ⟨Call.atomicAt_of_error hcall, fun hyes => absurd hyes hfits, fun _ => ⟨e, hcall⟩⟩

theorem oneColumn_built : oneColumn.Built := by
  have hempty : Problem.empty 0 1 = .ok { oneColumn with objective := [0] } := rfl
  have hset := Problem.Built.call (.empty hempty) (.objective [1])
  exact hset

/-- Of two rows the second has a column too many; of two changes the second has no row. -/
theorem mixedRows_failed_change_is_no_change :
    let rows := [.bound 0 .lessEq 1, .bound 1 .lessEq 1]
    let change : ProblemChange Extended := .rows (.addList rows)
    let add : Command Extended := .addConstraints rows .both
    let write : Command Extended := .changeRhs [(1, 1), (0, 0)]
    (oneColumn.Built ∧ change.call.AtomicAt oneColumn ∧
      (change.call oneColumn).state = oneColumn) ∧
    (mixedRows.Reachable ∧ ¬ add.Fits mixedRows ∧
      ∃ e, add.call mixedRows = ⟨.error (.error e), mixedRows, []⟩) ∧
    (write.Fits mixedRows ∧ ∃ a b' es, write.call mixedRows = ⟨.ok a, b', es⟩ ∧
      b'.session.model.rows = write.rowsAfter mixedRows.session.model.rows) := by
  intro rows change add write
  obtain ⟨-, hproblem, hbinding⟩ := failed_change_is_no_change barren
  have hchange := hproblem oneColumn change oneColumn_built
  have hadd : ¬ add.Fits mixedRows := by
    intro h
    exact absurd (h (.bound 1 .lessEq 1) (by simp [rows]) (1, 1) (by simp [Constraint.bound]))
      (Nat.lt_irrefl 1)
  have hwrite : write.Fits mixedRows := by
    have hlength : mixedRows.shared.length = 2 := rfl
    simp [write, Command.Fits, hlength]
  obtain ⟨-, -, hrefused⟩ := hbinding mixedRows add mixedRows_reachable (by simp [add])
  obtain ⟨-, hdone, -⟩ := hbinding mixedRows write mixedRows_reachable (by simp [write])
  exact ⟨⟨oneColumn_built, hchange, hchange (.missingColumn 1 1) rfl⟩,
    ⟨mixedRows_reachable, hadd, hrefused hadd⟩, hwrite, hdone hwrite⟩

end Binding

end LinProg
