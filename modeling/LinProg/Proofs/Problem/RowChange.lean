import LinProg.Proofs.Problem.Valid

/-!
The changes of the rows of a problem, taken as one. A change is refused as a whole or has its
effect, which never spoils the lists of a problem; only rows that are ranges and bring no range
value can make a valid problem invalid, and only while it has no range values.
-/

namespace LinProg

inductive RowChange (α : Type) where
  | add (c : Constraint α)
  | addList (cs : List (Constraint α))
  | comparison (first : Nat) (sense : Sense) (second : Nat)
  | bound (index : Nat) (sense : Sense) (value : α)
  | dense (rows : List (List α)) (values : List α) (senses : List Sense)
  | removeLast (n : Nat)
  | coefficient (row column : Nat) (value : α)
  | rhs (row : Nat) (value : α)

namespace RowChange

variable {α : Type} [Scalar α]

def call : RowChange α → ProblemCall α Unit
  | add c => Problem.addConstraint c
  | addList cs => Problem.addConstraints cs
  | comparison first sense second => do
    let _ ← Problem.addComparison first sense second
    return ()
  | bound index sense value => Problem.addBound index sense value
  | dense rows values senses => Problem.addRows rows values senses
  | removeLast n => Problem.removeLast n
  | coefficient row column value => Problem.setCoefficient row column value
  | rhs row value => Problem.setRowRhs row value

def appended : RowChange α → List (NewRow α)
  | add c => [.ofConstraint c]
  | addList cs => cs.map .ofConstraint
  | comparison first sense second =>
    (Constraint.comparison first sense second).toList.map .ofConstraint
  | bound index sense value => [.ofConstraint (.bound index sense value)]
  | dense rows values senses => (rows.zip (values.zip senses)).map .ofDense
  | removeLast _ | coefficient _ _ _ | rhs _ _ => []

def effect : RowChange α → Problem α → Problem α
  | removeLast n, p => p.dropLast n
  | coefficient row column value, p => p.writeRow row (.term column value)
  | rhs row value, p => p.writeRow row (.rhs value)
  | change, p => p.pushRows change.appended

def onRows : RowChange α → List (ModelRow α) → List (ModelRow α)
  | removeLast n, rows => rows.take (rows.length - n)
  | coefficient row column value, rows => rows.modify row (RowWrite.term column value).apply
  | rhs row value, rows => rows.modify row (RowWrite.rhs value).apply
  | change, rows => rows ++ change.appended.map (·.modelRow)

omit [Scalar α] in
def Fits (columns numRows numRhs : Nat) : RowChange α → Prop
  | add c => ∀ t ∈ c.terms, t.1 < columns
  | addList cs => ∀ c ∈ cs, ∀ t ∈ c.terms, t.1 < columns
  | comparison first _ second => first ≠ second → first < columns ∧ second < columns
  | bound index _ _ => index < columns
  | dense rows values senses =>
    values.length = rows.length ∧ senses.length = rows.length ∧ ∀ row ∈ rows, row.length = columns
  | removeLast n => n ≤ numRows
  | coefficient row column _ => row < numRows ∧ column < columns
  | rhs row _ => row < numRhs

def Settled (p : Problem α) (change : RowChange α) : Prop :=
  (change.Fits p.columns p.numRows p.rhs.length ∧
      ∃ es, change.call p = ⟨.ok (), change.effect p, es⟩) ∨
    ¬ change.Fits p.columns p.numRows p.rhs.length ∧ ∃ e, change.call p = ⟨.error (.error e), p, []⟩

theorem settled_add {p : Problem α} (hp : p.matrix.columns = p.columns) (c : Constraint α) :
    (add c).Settled p := by
  have hfits : (add c).Fits p.columns p.numRows p.rhs.length ↔ c.checkColumns p.columns = .ok () :=
    Constraint.checkColumns_eq_ok.symm
  rw [Settled, hfits]
  cases hc : c.checkColumns p.columns with
  | ok u => exact .inl ⟨rfl, _, Problem.addConstraint_apply hp hc⟩
  | error e => exact .inr ⟨by simp, e, Problem.addConstraint_refused hc⟩

theorem settled_addList {p : Problem α} (hp : p.matrix.columns = p.columns)
    (cs : List (Constraint α)) : (addList cs).Settled p := by
  obtain hcs | ⟨index, hindex, hcs⟩ := Constraint.beyond_cases p.columns cs
  · exact .inl ⟨fun c hc => Constraint.checkColumns_eq_ok.1 (hcs c hc),
      Problem.addConstraints_apply hp hcs⟩
  · exact .inr ⟨hcs, _, Problem.addConstraints_refused hindex⟩

theorem settled_comparison {p : Problem α} (hp : p.matrix.columns = p.columns) (first : Nat)
    (sense : Sense) (second : Nat) : (comparison first sense second : RowChange α).Settled p := by
  let change : RowChange α := comparison first sense second
  by_cases heq : first = second
  · have hc : (Constraint.comparison first sense second : Option (Constraint α)) = none :=
      if_pos heq
    have hnone : change.effect p = p := by
      simp [change, effect, appended, hc, Problem.pushRows]
    refine .inl ⟨fun hne => absurd heq hne, [], ?_⟩
    rw [hnone]
    simp [call, Problem.addComparison, hc]
  · let c : Constraint α := ⟨[(first, 1), (second, -1)], sense, 0, none⟩
    have hc : Constraint.comparison first sense second = some c := if_neg heq
    have hfits : change.Fits p.columns p.numRows p.rhs.length ↔
        (add c).Fits p.columns p.numRows p.rhs.length := by
      simp [change, c, Fits, heq]
    have heffect : change.effect p = (add c).effect p := by
      simp [change, effect, appended, hc]
    have hcall : change.call = ((add c).call >>= fun _ => pure true) >>= fun _ => pure () := by
      simp [change, call, Problem.addComparison, hc]
    rw [Settled, hfits, heffect, hcall]
    obtain ⟨hf, es, h⟩ | ⟨hf, e, h⟩ := settled_add hp c
    · exact .inl ⟨hf, _, Call.bind_eq (Call.bind_eq h rfl) rfl⟩
    · exact .inr ⟨hf, e, Call.bind_of_error (Call.bind_of_error h _) _⟩

theorem settled_of_columns {p : Problem α} (hp : p.matrix.columns = p.columns)
    (change : RowChange α) : change.Settled p := by
  cases change with
  | add c => exact settled_add hp c
  | addList cs => exact settled_addList hp cs
  | comparison first sense second => exact settled_comparison hp first sense second
  | bound index sense value =>
    have hfits : (bound index sense value).Fits p.columns p.numRows p.rhs.length ↔
        (add (.bound index sense value)).Fits p.columns p.numRows p.rhs.length := by
      simp [Fits, Constraint.bound]
    rw [Settled, hfits]
    exact settled_add hp (.bound index sense value)
  | dense rows values senses =>
    by_cases h : p.RowsFit rows values senses
    · exact .inl ⟨⟨h.rhs, h.senses, h.rows⟩, [], Problem.addRows_apply hp h⟩
    · exact .inr ⟨fun hf => h ⟨hf.1, hf.2.1, hf.2.2⟩, Problem.addRows_refused h⟩
  | removeLast n =>
    by_cases h : n ≤ p.numRows
    · exact .inl ⟨h, [], Problem.removeLast_apply h⟩
    · exact .inr ⟨h, _, Problem.removeLast_refused (Nat.not_le.1 h)⟩
  | coefficient row column value =>
    rw [Settled, Fits, ← hp]
    by_cases h : row < p.numRows ∧ column < p.matrix.columns
    · exact .inl ⟨h, [], Problem.setCoefficient_apply h.1 h.2 value⟩
    · exact .inr ⟨h, _, Problem.setCoefficient_refused h value⟩
  | rhs row value =>
    by_cases h : row < p.rhs.length
    · exact .inl ⟨h, [], Problem.setRowRhs_apply h value⟩
    · exact .inr ⟨h, _, Problem.setRowRhs_refused h value⟩

theorem call_cases_of_columns {p : Problem α} (hp : p.matrix.columns = p.columns)
    (change : RowChange α) : (∃ es, change.call p = ⟨.ok (), change.effect p, es⟩) ∨
      ∃ e, change.call p = ⟨.error (.error e), p, []⟩ :=
  (change.settled_of_columns hp).imp And.right And.right

theorem call_cases {p : Problem α} (hp : p.ColumnsFit) (change : RowChange α) :
    (∃ es, change.call p = ⟨.ok (), change.effect p, es⟩) ∨
      ∃ e, change.call p = ⟨.error (.error e), p, []⟩ :=
  change.call_cases_of_columns hp.matrix

theorem frame_effect (change : RowChange α) (p : Problem α) :
    (change.effect p).frame = p.frame := by
  cases change with
  | removeLast | coefficient | rhs => rfl
  | add | addList | comparison | bound | dense => exact Problem.frame_pushRows _ _

theorem hasRows_effect (change : RowChange α) {p : Problem α} {rows : List (ModelRow α)}
    (h : p.HasRows rows) : (change.effect p).HasRows (change.onRows rows) := by
  cases change with
  | removeLast n => exact h.dropLast n
  | coefficient row column value => exact h.writeRow row (.term column value)
  | rhs row value => exact h.writeRow row (.rhs value)
  | add | addList | comparison | bound | dense => exact h.pushRows _

theorem rangesGiven_effect {p : Problem α} (h : p.RangesGiven) (change : RowChange α) :
    (change.effect p).RangesGiven ↔ ¬ (p.ranges = none ∧ NewRow.Bare change.appended) := by
  cases change with
  | removeLast n =>
    simpa [effect, appended, NewRow.Bare] using h.dropLast n
  | coefficient row column value =>
    simpa [effect, appended, NewRow.Bare] using
      h.rewritten (Problem.writeRow_rewritten row (.term column value) p)
  | rhs row value =>
    simpa [effect, appended, NewRow.Bare] using
      h.rewritten (Problem.writeRow_rewritten row (.rhs value) p)
  | add | addList | comparison | bound | dense => exact h.pushRows _

theorem validate_effect (change : RowChange α) {p : Problem α} (h : p.validate = .ok ()) :
    (change.effect p).validate = .ok () ↔
      ¬ (p.ranges = none ∧ NewRow.Bare change.appended) := by
  obtain ⟨hframe, ⟨rows, hrows⟩, hranges⟩ := Problem.validate_eq_ok.1 h
  rw [← rangesGiven_effect hranges, Problem.validate_eq_ok]
  constructor
  · exact fun h => h.2.2
  · exact fun hg => ⟨hframe.of_frame (change.frame_effect p), ⟨_, change.hasRows_effect hrows⟩, hg⟩

end RowChange

end LinProg
