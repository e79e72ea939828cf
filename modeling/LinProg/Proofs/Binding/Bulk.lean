import LinProg.Proofs.Binding.Reachable
import LinProg.Proofs.Matrix.Columns
import LinProg.Proofs.Problem.Listed

namespace LinProg

variable {α : Type} [Scalar α]

/-- A call takes a list of constraints as if they came one by one, or refuses it with the first
column, of the first constraint that has one, that is beyond the others. -/
structure TakesWhole {υ ε σ : Type} (columns : Nat) (cs : List (Constraint α))
    (wrap : ProblemError α → ε) (call : Call υ ε σ Unit) (s oneByOne : σ) : Prop where
  goesThrough : (call s).result = .ok () ↔ ∀ c ∈ cs, ∀ i ∈ c.indices, i < columns
  made : (call s).result = .ok () → (call s).state = oneByOne
  refused : (call s).result ≠ .ok () →
    ∃ index, cs.findSome? (Constraint.beyond? columns) = some index ∧
      call s = ⟨.error (.error (wrap (.missingColumn index columns))), s, []⟩

omit [Scalar α] in
theorem takesWhole_of_cases {υ ε σ : Type} {columns : Nat} {cs : List (Constraint α)}
    {wrap : ProblemError α → ε} {call : Call υ ε σ Unit} {s oneByOne : σ}
    (hmade : (∀ c ∈ cs, c.checkColumns columns = .ok ()) →
      (call s).result = .ok () ∧ (call s).state = oneByOne)
    (hrefused : ∀ index, cs.findSome? (Constraint.beyond? columns) = some index →
      call s = ⟨.error (.error (wrap (.missingColumn index columns))), s, []⟩) :
    TakesWhole columns cs wrap call s oneByOne := by
  have hindices : (∀ c ∈ cs, ∀ i ∈ c.indices, i < columns) ↔
      ∀ c ∈ cs, ∀ t ∈ c.terms, t.1 < columns := by
    simp only [Constraint.indices, List.forall_mem_map]
  obtain hcs | ⟨index, hindex, hno⟩ := Constraint.beyond_cases columns cs
  · obtain ⟨hok, hstate⟩ := hmade hcs
    exact ⟨iff_of_true hok (hindices.2 fun c hc => Constraint.checkColumns_eq_ok.1 (hcs c hc)),
      fun _ => hstate, fun h => absurd hok h⟩
  · have hcall := hrefused index hindex
    have hresult : (call s).result ≠ .ok () := by simp [hcall]
    exact ⟨iff_of_false hresult fun h => hno (hindices.1 h), fun h => absurd h hresult,
      fun _ => ⟨index, hindex, hcall⟩⟩

namespace Problem

variable {p : Problem α}

theorem afterRows_add (p : Problem α) (cs : List (Constraint α)) :
    p.afterRows (cs.map .add) = cs.foldl (fun p c => (addConstraint c p).state) p :=
  List.foldl_map

theorem afterRows_add_eq (hp : p.matrix.columns = p.columns) {cs : List (Constraint α)}
    (hcs : ∀ c ∈ cs, c.checkColumns p.columns = .ok ()) :
    p.afterRows (cs.map .add) = p.pushRows (cs.map .ofConstraint) := by
  obtain ⟨es, hes⟩ := forM_addConstraint hp hcs
  have hstate := Call.state_forM (congrArg Reply.result hes)
  rw [afterRows_add, ← hstate, hes]

theorem takesWhole (hp : p.matrix.columns = p.columns) (cs : List (Constraint α)) :
    TakesWhole p.columns cs id (addConstraints cs) p (p.afterRows (cs.map .add)) := by
  refine takesWhole_of_cases (fun hcs => ?_) fun index => addConstraints_refused
  obtain ⟨es, hes⟩ := addConstraints_apply hp hcs
  rw [hes]
  exact ⟨rfl, (afterRows_add_eq hp hcs).symm⟩

def rowConstraint (columns : Nat) (row : List α × α × Sense) : Constraint α :=
  ⟨(List.range columns).zip row.1, row.2.2, row.2.1, none⟩

theorem ofConstraint_rowConstraint [LawfulScalar α] [LawfulSum α] {columns : Nat}
    {row : List α × α × Sense} (h : row.1.length = columns) :
    NewRow.ofConstraint (rowConstraint columns row) = .ofDense row := by
  subst h
  have hterms : SparseRow.ofTerms (SparseRow.fullTerms row.1) = .ofDense row.1 :=
    SparseRow.ofTerms_fullTerms (.refl _)
  rw [NewRow.ofDense, ← hterms]
  rfl

theorem addRows_eq [LawfulScalar α] [LawfulSum α] (hp : p.matrix.columns = p.columns)
    {rows : List (List α)} {rhs : List α} {senses : List Sense}
    (h : (addRows rows rhs senses p).result = .ok ()) :
    (addRows rows rhs senses p).state =
      p.afterRows
        ((rows.zip (rhs.zip senses)).map fun row => .add (rowConstraint p.columns row)) := by
  have hfit : p.RowsFit rows rhs senses := by
    by_contra hno
    obtain ⟨e, he⟩ := addRows_refused hno
    simp [he] at h
  have hrow : ∀ row ∈ rows.zip (rhs.zip senses), row.1.length = p.columns := fun row hrow =>
    hfit.rows row.1 (List.of_mem_zip hrow).1
  have hcs : ∀ c ∈ (rows.zip (rhs.zip senses)).map (rowConstraint p.columns),
      c.checkColumns p.columns = .ok () := by
    refine List.forall_mem_map.2 fun row _ => Constraint.checkColumns_eq_ok.2 fun t ht => ?_
    exact List.mem_range.1 (List.of_mem_zip ht).1
  have hadd := afterRows_add_eq hp hcs
  rw [List.map_map, List.map_map] at hadd
  rw [addRows_apply hp hfit]
  refine Eq.trans ?_ hadd.symm
  exact congrArg p.pushRows
    (List.map_congr_left fun row h => (ofConstraint_rowConstraint (hrow row h)).symm)

end Problem

namespace Binding

variable {B : Backend α} {b : Binding B}

theorem after_addConstraint (b : Binding B) (scope : RowScope) (cs : List (Constraint α)) :
    b.after (cs.map (.addConstraint · scope)) =
      cs.foldl (fun b c => (addConstraint c scope b).state) b := by
  rw [after, List.foldl_map]
  exact congrArg (cs.foldl · b) (funext₂ fun b c => Call.bind_state (fun _ _ => rfl) b)

theorem Aligned.takesWhole (h : b.Aligned) (scope : RowScope) (cs : List (Constraint α)) :
    TakesWhole b.problem.columns cs .problem (addConstraints cs scope) b
      (b.after (cs.map (.addConstraint · scope))) := by
  refine takesWhole_of_cases (fun hcs => ?_) fun index hindex => addConstraints_refused hindex scope
  obtain ⟨es, hes⟩ := addConstraints_apply h scope hcs
  obtain ⟨es', hes'⟩ := forM_addConstraint h scope hcs
  have hstate := Call.state_forM (congrArg Reply.result hes')
  rw [hes, after_addConstraint, ← hstate, hes']
  exact ⟨rfl, rfl⟩

end Binding

/-- Rows that are appended together are the rows that come one by one. A list of constraints that
does not go through leaves everything as it was. -/
theorem bulk_as_one_by_one [LawfulScalar α] [LawfulSum α] {B : Backend α} :
    (∀ p : Problem α, p.matrix.columns = p.columns → ∀ cs : List (Constraint α),
      TakesWhole p.columns cs id (Problem.addConstraints cs) p (p.afterRows (cs.map .add))) ∧
    (∀ b : Binding B, b.Reachable → ∀ (cs : List (Constraint α)) (scope : RowScope),
      TakesWhole b.problem.columns cs .problem (Binding.addConstraints cs scope) b
        (b.after (cs.map (.addConstraint · scope)))) ∧
    ∀ p : Problem α, p.matrix.columns = p.columns →
      ∀ (rows : List (List α)) (rhs : List α) (senses : List Sense),
        (Problem.addRows rows rhs senses p).result = .ok () →
        (Problem.addRows rows rhs senses p).state =
          p.afterRows ((rows.zip (rhs.zip senses)).map fun (row, b, sense) =>
            .add ⟨(List.range p.columns).zip row, sense, b, none⟩) :=
  ⟨fun _ => Problem.takesWhole, fun _ hb cs scope => hb.aligned.takesWhole scope cs,
    fun _ hp _ _ _ => Problem.addRows_eq hp⟩

/-- Of two constraints the second names a column that is not there; two full rows are taken, the
second of which is empty. -/
theorem bulk_refused_and_taken :
    let cs : List (Constraint Extended) :=
      [⟨[(0, 1), (0, 1)], .range, 1, some 1⟩, ⟨[(0, 1), (3, 1), (2, 1)], .lessEq, 0, none⟩]
    let rows : List (RowChange Extended) :=
      [.add ⟨[(0, 1)], .equal, 1, none⟩, .add ⟨[(0, 0)], .lessEq, 1, none⟩]
    (Binding.oneColumn.matrix.columns = Binding.oneColumn.columns ∧
      Problem.addConstraints cs Binding.oneColumn =
        ⟨.error (.error (.missingColumn 3 1)), Binding.oneColumn, []⟩) ∧
    (Binding.mixedRows.Reachable ∧ Binding.addConstraints cs .both Binding.mixedRows =
      ⟨.error (.error (.problem (.missingColumn 3 1))), Binding.mixedRows, []⟩) ∧
    (Problem.addRows [[1], [0]] [1, 1] [.equal, .lessEq] Binding.oneColumn).result = .ok () ∧
    (Problem.addRows [[1], [0]] [1, 1] [.equal, .lessEq] Binding.oneColumn).state =
      Binding.oneColumn.afterRows rows := by
  intro cs rows
  obtain ⟨hproblem, hbinding, hrows⟩ := bulk_as_one_by_one (α := Extended) (B := Binding.barren)
  have hcolumns : Binding.oneColumn.matrix.columns = Binding.oneColumn.columns := rfl
  have hreachable := Binding.mixedRows_reachable
  have hfirst : cs.findSome? (Constraint.beyond? 1) = some 3 := rfl
  obtain ⟨i, hi, hp⟩ := (hproblem Binding.oneColumn hcolumns cs).refused nofun
  obtain ⟨j, hj, hb⟩ := (hbinding Binding.mixedRows hreachable cs .both).refused nofun
  obtain rfl := Option.some.inj (hi.symm.trans hfirst)
  obtain rfl := Option.some.inj (hj.symm.trans hfirst)
  exact ⟨⟨hcolumns, hp⟩, ⟨hreachable, hb⟩, rfl,
    hrows Binding.oneColumn hcolumns [[1], [0]] [1, 1] [.equal, .lessEq] rfl⟩

end LinProg
