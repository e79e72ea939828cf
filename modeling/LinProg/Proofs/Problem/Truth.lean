import LinProg.Problem.Point
import LinProg.Proofs.Problem.Built

namespace LinProg

variable {α : Type} [Scalar α]

open Scalar

namespace ProblemError

/-- What the error says is so of a problem. Texts of senses and kinds are no part of a problem, and
only those who read them tell of them. -/
def TrueOf (p : Problem α) : ProblemError α → Prop
  | length _ expected found => found ≠ expected
  | bounds column lower upper => p.lower[column]? = some lower ∧ p.upper[column]? = some upper ∧
    (isNaN lower = true ∨ isNaN upper = true ∨ lt upper lower = true)
  | rangeMissing row => p.senses[row]? = some .range ∧ p.ranges = none
  | integerColumn column kind problem => p.kinds[column]? = some kind ∧ kind.isInteger = true ∧
    p.kind = problem ∧ problem.allowsIntegers = false
  | missingColumn index columns => columns ≤ index
  | missingEntry row column rows columns => rows ≤ row ∨ columns ≤ column
  | tooFewRows requested available => available < requested
  | empty => p.columns = 0
  | unknownSense _ | unknownKind _ => False

/-- What the error says does not depend on the problem. -/
def IsTrue (e : ProblemError α) : Prop :=
  ∀ p, e.TrueOf p

theorem isTrue_length {part : Part} {expected found : Nat} (h : found ≠ expected) :
    (length part expected found : ProblemError α).IsTrue := fun _ => h

theorem isTrue_missingColumn {index columns : Nat} (h : columns ≤ index) :
    (missingColumn index columns : ProblemError α).IsTrue := fun _ => h

theorem isTrue_missingEntry {row column rows columns : Nat}
    (h : ¬ (row < rows ∧ column < columns)) :
    (missingEntry row column rows columns : ProblemError α).IsTrue := by
  intro p
  rw [not_and_or, Nat.not_lt, Nat.not_lt] at h
  exact h

theorem isTrue_tooFewRows {requested available : Nat} (h : ¬ requested ≤ available) :
    (tooFewRows requested available : ProblemError α).IsTrue := fun _ => Nat.not_le.1 h

end ProblemError

open ProblemError

namespace SparseMatrix

variable {υ : Type}

theorem honest_set (row column : Nat) (value : α) :
    (set row column value : MatrixCall υ α Unit).Honest IsTrue := by
  refine Call.honest_state_bind fun m => Call.honest_bind (Call.ends_ofExcept fun e he => ?_)
    fun _ => Call.honest_modify? _
  rw [checkEntry] at he
  split at he
  · cases he
  · rename_i hout
    cases he
    exact isTrue_missingEntry hout

theorem honest_pushDense (values : List α) :
    (pushDense values : MatrixCall υ α Unit).Honest IsTrue := by
  refine Call.honest_state_bind fun m => Call.honest_bind (Call.ends_require fun h => ?_)
    fun _ => Call.honest_modify _
  exact isTrue_length (by simpa using h)

theorem honest_pushTerms (terms : List (Nat × α)) :
    (pushTerms terms : MatrixCall υ α Unit).Honest IsTrue := by
  refine Call.honest_state_bind fun m => ?_
  split
  · rename_i index v hfind
    exact Call.ends_fail (isTrue_missingColumn (by simpa using List.find?_some hfind))
  · exact Call.honest_modify _

theorem honest_removeLast (n : Nat) :
    (removeLast n : MatrixCall υ α Unit).Honest IsTrue := by
  refine Call.honest_state_bind fun m => Call.honest_bind (Call.ends_require fun h => ?_)
    fun _ => Call.honest_modify? _
  exact isTrue_tooFewRows (by simpa using h)

theorem honest_change (change : MatrixChange α) :
    (change.call : MatrixCall υ α Unit).Honest IsTrue := by
  cases change with
  | set row column value => exact honest_set row column value
  | pushDense values => exact honest_pushDense values
  | pushTerms terms => exact honest_pushTerms terms
  | removeLast n => exact honest_removeLast n

omit [Scalar α] in
theorem error_of_build {change : MatrixCall Empty α Unit} {m : SparseMatrix α}
    {f : Failure (ProblemError α)} (h : build change m = .error f) :
    (change m).result = .error f := by
  rw [build] at h
  cases hr : (change m).result with
  | ok u => simp [hr, Except.map] at h
  | error f' => simpa [hr, Except.map] using h

theorem ofDense_isTrue {columns : Nat} {rows : List (List α)} {e : ProblemError α}
    (h : ofDense columns rows = .error (.error e)) : e.IsTrue :=
  Call.Honest.error (Call.ends_forM fun values _ => honest_pushDense values) (error_of_build h)

theorem ofTriples_isTrue {rows columns : Nat} {triples : List (Nat × Nat × α)}
    {e : ProblemError α} (h : ofTriples rows columns triples = .error (.error e)) : e.IsTrue :=
  Call.Honest.error (Call.ends_forM fun t _ => honest_set t.1 t.2.1 t.2.2) (error_of_build h)

end SparseMatrix

namespace Constraint

theorem ofLists_isTrue {indices : List Nat} {coeffs : List α} {sense : Sense} {rhs : α}
    {e : ProblemError α} (h : ofLists indices coeffs sense rhs = .error e) : e.IsTrue := by
  rw [ofLists] at h
  split at h
  · cases h
  · rename_i hne
    cases h
    exact isTrue_length (Ne.symm hne)

theorem checkColumns_isTrue {c : Constraint α} {columns : Nat} {e : ProblemError α}
    (h : c.checkColumns columns = .error e) : e.IsTrue := by
  rw [checkColumns] at h
  split at h
  · rename_i index hfind
    cases h
    exact isTrue_missingColumn (by simpa using List.find?_some hfind)
  · cases h

end Constraint

namespace Problem

theorem honest_onMatrix {c : MatrixCall (Event α) α Unit} (hc : c.Honest IsTrue) :
    (onMatrix c).Honest IsTrue :=
  Call.honest_on hc fun _ he => he

theorem checkColumn_isTrue {p : Problem α} {column : Nat} {e : ProblemError α}
    (h : p.checkColumn column = .error e) : e.IsTrue := by
  rw [checkColumn] at h
  split at h
  · cases h
  · rename_i hout
    cases h
    exact isTrue_missingColumn (Nat.not_lt.1 hout)

theorem honest_setBounds (column : Nat) (lower upper : α) :
    (setBounds column lower upper).Honest IsTrue :=
  Call.honest_state_bind fun _ => Call.honest_bind (Call.ends_ofExcept fun _ => checkColumn_isTrue)
    fun _ => Call.honest_modify? _

theorem honest_defineColumn (column : Nat) (definition : Column α) :
    (defineColumn column definition).Honest IsTrue :=
  Call.honest_state_bind fun _ => Call.honest_bind (Call.ends_ofExcept fun _ => checkColumn_isTrue)
    fun _ => Call.honest_modify? _

theorem toMatrix_failure {data : MatrixData α} {columns : Nat} {f : Failure (ProblemError α)}
    (h : data.toMatrix columns = .error f) : f.Satisfies IsTrue := by
  cases f with
  | fault f => trivial
  | error e =>
    cases data with
    | dense rows => exact SparseMatrix.ofDense_isTrue h
    | triples rows cols entries =>
      rw [MatrixData.toMatrix] at h
      split at h
      · exact SparseMatrix.ofTriples_isTrue h
      · rename_i hne
        cases h
        exact isTrue_length hne

theorem honest_setMatrix (data : MatrixData α) : (setMatrix data).Honest IsTrue :=
  Call.honest_state_bind fun _ => Call.honest_bind (Call.ends_ofResult fun _ => toMatrix_failure)
    fun _ => Call.honest_modify _

theorem honest_addConstraint (c : Constraint α) : (addConstraint c).Honest IsTrue := by
  refine Call.honest_state_bind fun p => ?_
  refine Call.honest_bind (Call.ends_ofExcept fun _ => Constraint.checkColumns_isTrue) fun _ => ?_
  refine Call.honest_bind (honest_onMatrix (SparseMatrix.honest_pushTerms c.terms)) fun _ => ?_
  refine Call.honest_bind (Call.honest_modify _) fun _ => Call.honest_state_bind fun _ => ?_
  exact Call.honest_bind (Call.honest_ofOption _) fun _ => Call.ends_emit _

theorem honest_addConstraints (cs : List (Constraint α)) :
    (addConstraints cs).Honest IsTrue := by
  refine Call.honest_state_bind fun p => ?_
  refine Call.honest_bind (Call.ends_forM fun c _ => Call.ends_ofExcept fun _ =>
    Constraint.checkColumns_isTrue) fun _ => ?_
  exact Call.ends_forM fun c _ => honest_addConstraint c

theorem honest_addComparison (first : Nat) (sense : Sense) (second : Nat) :
    (addComparison first sense second : ProblemCall α Bool).Honest IsTrue := by
  rw [addComparison]
  cases (Constraint.comparison first sense second : Option (Constraint α)) with
  | none => exact Call.ends_pure trivial
  | some c => exact Call.honest_bind (honest_addConstraint c) fun _ => Call.ends_pure trivial

theorem honest_removeLast (n : Nat) : (removeLast n : ProblemCall α Unit).Honest IsTrue :=
  Call.honest_bind (honest_onMatrix (SparseMatrix.honest_removeLast n)) fun _ =>
    Call.honest_modify _

def OneTooLong (rows : List (List α)) (rhs : List α) (senses : List Sense) : Prop :=
  min rhs.length senses.length = rows.length ∧ max rhs.length senses.length ≠ rows.length

theorem honest_addRows {rows : List (List α)} {rhs : List α} {senses : List Sense}
    (h : ¬ OneTooLong rows rhs senses) : (addRows rows rhs senses).Honest IsTrue := by
  refine Call.honest_state_bind fun p => ?_
  refine Call.honest_bind (Call.ends_require fun hl => ?_) fun _ => ?_
  · -- The shorter list is told of: if it has the right length, then the longer one has not.
    refine isTrue_length fun hmin => h ⟨hmin, fun hmax => ?_⟩
    have hrhs : rhs.length = rows.length := by omega
    have hsenses : senses.length = rows.length := by omega
    simp [hrhs, hsenses] at hl
  · dsimp only
    split
    · rename_i row hfind
      exact Call.ends_fail (isTrue_length (by simpa using List.find?_some hfind))
    · exact Call.ends_forM fun row _ =>
        Call.honest_bind (honest_onMatrix (SparseMatrix.honest_pushDense row.1)) fun _ =>
          Call.honest_modify _

theorem addRows_oneTooLong {p : Problem α} {rows : List (List α)} {rhs : List α}
    {senses : List Sense} (h : OneTooLong rows rhs senses) : addRows rows rhs senses p =
      ⟨.error (.error (.length .rowData rows.length rows.length)), p, []⟩ := by
  have hl : (rhs.length == rows.length && senses.length == rows.length) = false := by
    obtain ⟨hmin, hmax⟩ := h
    simp only [Bool.and_eq_false_iff, beq_eq_false_iff_ne]
    omega
  simp only [addRows, Call.state_bind, hl, Call.require_false, Call.fail_bind, h.1]

theorem setRowRhs_error {p : Problem α} {row : Nat} {value : α} {e : ProblemError α}
    (h : (setRowRhs row value p).result = .error (.error e)) :
    p.rhs.length ≤ row ∧ e = .missingEntry row 0 p.numRows 1 := by
  by_cases hrow : row < p.rhs.length
  · simp [setRowRhs_apply hrow] at h
  · rw [setRowRhs_refused hrow] at h
    cases h
    exact ⟨Nat.not_lt.1 hrow, rfl⟩

end Problem

/-- A call that tells of another length than the one that it checked, and of one that is all right:
of the shorter of two lists of which the longer one is wrong, or of the rows of the matrix where
there are not as many right-hand sides. -/
def ProblemChange.Misreports (p : Problem α) : ProblemChange α → Prop
  | .rows (.dense full values codes) => Problem.OneTooLong full values codes
  | .rows (.rhs row _) => p.rhs.length ≤ row ∧ row < p.numRows
  | _ => False

namespace Problem

theorem rows_trueOf {change : RowChange α} {p : Problem α}
    (h : ¬ (ProblemChange.rows change).Misreports p) {e : ProblemError α}
    (he : (change.call p).result = .error (.error e)) : e.TrueOf p := by
  cases change with
  | add c => exact (honest_addConstraint c).error he p
  | addList cs => exact (honest_addConstraints cs).error he p
  | comparison first sense second =>
    exact (Call.honest_bind (honest_addComparison first sense second) fun _ =>
      Call.ends_pure trivial).error he p
  | bound index sense value => exact (honest_addConstraint (.bound index sense value)).error he p
  | dense rows values senses => exact (honest_addRows h).error he p
  | removeLast n => exact (honest_removeLast n).error he p
  | coefficient row column value =>
    exact (honest_onMatrix (SparseMatrix.honest_set row column value)).error he p
  | rhs row value =>
    obtain ⟨hrow, rfl⟩ := setRowRhs_error he
    exact .inl (Nat.not_lt.1 fun hlt => h ⟨hrow, hlt⟩)

/-- The errors of a change are true, unless it is one of those that tell of the wrong length. -/
theorem change_trueOf_iff {change : ProblemChange α} {p : Problem α} {e : ProblemError α}
    (he : (change.call p).result = .error (.error e)) :
    e.TrueOf p ↔ ¬ change.Misreports p := by
  constructor
  · intro htrue hmis
    cases change with
    | rows change =>
      cases change with
      | dense rows values senses =>
        have hcall : (addRows rows values senses p).result = .error (.error e) := he
        rw [addRows_oneTooLong hmis] at hcall
        cases hcall
        exact htrue rfl
      | rhs row value =>
        obtain ⟨-, rfl⟩ := setRowRhs_error he
        exact htrue.elim (Nat.not_le.2 hmis.2) (Nat.not_le.2 Nat.one_pos)
      | _ => exact hmis
    | _ => exact hmis
  · intro h
    cases change with
    | bounds column lower upper => exact (honest_setBounds column lower upper).error he p
    | define column definition => exact (honest_defineColumn column definition).error he p
    | matrix data => exact (honest_setMatrix data).error he p
    | rows change => exact rows_trueOf h he
    | _ => cases he

theorem checkLength_isTrue {part : Part} {expected found : Nat} {e : ProblemError α}
    (h : checkLength part expected found = .error e) : e.IsTrue := by
  rw [checkLength] at h
  split at h
  · cases h
  · rename_i hne
    cases h
    exact isTrue_length (Ne.symm hne)

theorem checkRanges_trueOf {p : Problem α} {e : ProblemError α} (h : p.checkRanges = .error e) :
    e.TrueOf p := by
  rw [checkRanges] at h
  split at h
  · exact checkLength_isTrue h p
  · rename_i hnone
    split at h
    · rename_i row hrow
      cases h
      obtain ⟨hlt, hrange, -⟩ := List.findIdx?_eq_some_iff_getElem.1 hrow
      exact ⟨List.getElem?_eq_some_iff.2 ⟨hlt, by simpa using hrange⟩, hnone⟩
    · cases h

theorem checkBounds_trueOf {p : Problem α} {e : ProblemError α} (h : p.checkBounds = .error e) :
    e.TrueOf p := by
  rw [checkBounds] at h
  split at h
  · rename_i lower upper column hfind
    cases h
    have hat := List.mem_zipIdx_iff_getElem?.1 (List.mem_of_find?_eq_some hfind)
    obtain ⟨hlower, hupper⟩ := List.getElem?_zip_eq_some.1 hat
    exact ⟨hlower, hupper, by simpa [badBounds, or_assoc] using List.find?_some hfind⟩
  · cases h

theorem checkKinds_trueOf {p : Problem α} {e : ProblemError α} (h : p.checkKinds = .error e) :
    e.TrueOf p := by
  rw [checkKinds] at h
  split at h
  · cases h
  · rename_i hkind
    split at h
    · rename_i kind column hfind
      cases h
      have hat := List.mem_zipIdx_iff_getElem?.1 (List.mem_of_find?_eq_some hfind)
      exact ⟨hat, by simpa using List.find?_some hfind, rfl, by simpa using hkind⟩
    · cases h

omit [Scalar α] in
theorem error_of_checks {x y : Except (ProblemError α) Unit} {e : ProblemError α}
    (h : (do x; y) = .error e) : x = .error e ∨ y = .error e := by
  cases x with
  | ok u => exact .inr h
  | error e' => exact .inl h

theorem validate_trueOf {p : Problem α} {e : ProblemError α} (h : p.validate = .error e) :
    e.TrueOf p := by
  rw [validate] at h
  obtain h | h := error_of_checks h
  · exact checkLength_isTrue h p
  obtain h | h := error_of_checks h
  · exact checkLength_isTrue h p
  obtain h | h := error_of_checks h
  · exact checkLength_isTrue h p
  obtain h | h := error_of_checks h
  · exact checkLength_isTrue h p
  obtain h | h := error_of_checks h
  · exact checkLength_isTrue h p
  obtain h | h := error_of_checks h
  · exact checkLength_isTrue h p
  obtain h | h := error_of_checks h
  · exact checkLength_isTrue h p
  obtain h | h := error_of_checks h
  · exact checkRanges_trueOf h
  obtain h | h := error_of_checks h
  · exact checkBounds_trueOf h
  · exact checkKinds_trueOf h

theorem maxViolation_isTrue {p : Problem α} {x : List α} {e : ProblemError α}
    (h : p.maxViolation x = .error (.error e)) : e.IsTrue := by
  rw [maxViolation] at h
  split at h
  · split at h <;> cases h
  · rename_i hne
    cases h
    exact isTrue_length hne

theorem empty_error {rows columns : Nat} {e : ProblemError α}
    (h : Problem.empty rows columns = .error e) : e = .empty ∧ columns = 0 := by
  rw [Problem.empty] at h
  split at h
  · rename_i hzero
    cases h
    exact ⟨rfl, hzero⟩
  · cases h

end Problem

end LinProg
