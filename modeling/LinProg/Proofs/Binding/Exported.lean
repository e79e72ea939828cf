import LinProg.Proofs.Backend.Rows
import LinProg.Proofs.Binding.Canonical
import LinProg.Proofs.Problem.Unambiguous

/-!
The rows of an export and those for a solver outside of the program. The text of a problem leaves
out weights that are zero, and the rows for the solver, which come from the session, do not. No
weight of a row is ever zero, so both state the same rows with the same sums.
-/

namespace LinProg

open Scalar Text

variable {α : Type} [Scalar α]

structure Problem.FiniteRows (p : Problem α) : Prop where
  rhs : ∀ v ∈ p.rhs, isFinite v = true
  ranges : ∀ row interval, p.senses[row]? = some .range → p.rowInterval? row = some interval →
    isFinite interval.1 = true ∧ isFinite interval.2 = true

/-- The line of row `i` in an export, and the comparisons that state the same row. The sum of the
line is that of each of them; a range is split at its ends, unless these are the same number. -/
inductive Written.States [Numeral α] (p : Problem α) (i : Nat) : String → List (Row α) → Prop
  | compared {row : SparseRow α} {sense : Sense} {comparison : Comparison} {rhs : α}
      (hrow : p.matrix.row? i = some row) (hsense : p.senses[i]? = some sense)
      (hrhs : p.rhs[i]? = some rhs) (h : comparison.symbol = sense.symbol) :
      States p i s!" c{i}: {sumText row} {sense.symbol} {Numeral.plain rhs}\n"
        [⟨sumText row, comparison, rhs⟩]
  | split {row : SparseRow α} {low high : α} (hrow : p.matrix.row? i = some row)
      (hsense : p.senses[i]? = some .range) (hends : p.rowInterval? i = some (low, high))
      (h : same low high = false) :
      States p i s!" c{i}: {Numeral.plain low} <= {sumText row} <= {Numeral.plain high}\n"
        [⟨sumText row, .atLeast, low⟩, ⟨sumText row, .atMost, high⟩]
  | joined {row : SparseRow α} {low high : α} (hrow : p.matrix.row? i = some row)
      (hsense : p.senses[i]? = some .range) (hends : p.rowInterval? i = some (low, high))
      (h : same low high = true) :
      States p i s!" c{i}: {Numeral.plain low} <= {sumText row} <= {Numeral.plain high}\n"
        [⟨sumText row, .equal, low⟩]

namespace Comparison

variable [LawfulScalar α]

theorem ofInterval_compared {sense : Sense} (hs : sense ≠ .range) {rhs : α}
    (hrhs : isFinite rhs = true) (range : α) : ∃ comparison : Comparison,
      comparison.symbol = sense.symbol ∧
        ofInterval (sense.interval rhs range) = [(comparison, rhs)] := by
  have hlow := LawfulScalar.negInf_lt hrhs
  have hhigh := LawfulScalar.lt_posInf hrhs
  cases sense with
  | lessEq =>
    refine ⟨.atMost, rfl, ?_⟩
    simp [ofInterval, Sense.interval, same_of_lt hlow, lt_self, hhigh]
  | greaterEq =>
    refine ⟨.atLeast, rfl, ?_⟩
    simp [ofInterval, Sense.interval, same_of_lt hhigh, lt_self, hlow]
  | equal =>
    refine ⟨.equal, rfl, ?_⟩
    simp [ofInterval, Sense.interval, same_self (isNaN_of_isFinite hrhs)]
  | range => exact absurd rfl hs

theorem ofInterval_finite {i : Interval α} (hi : isFinite i.1 = true ∧ isFinite i.2 = true) :
    ofInterval i =
      if same i.1 i.2 then [(.equal, i.1)] else [(.atLeast, i.1), (.atMost, i.2)] := by
  rw [ofInterval, if_pos (LawfulScalar.negInf_lt hi.1), if_pos (LawfulScalar.lt_posInf hi.2)]
  rfl

end Comparison

theorem ModelRow.map_inequalities [Numeral α] (r : ModelRow α) :
    r.inequalities.map Written.row =
      (Comparison.ofInterval r.interval).map fun (c, rhs) => ⟨sumText r.terms, c, rhs⟩ := by
  rw [inequalities, List.map_map]
  rfl

namespace Problem

variable {p : Problem α} {rows : List (ModelRow α)}

theorem HasRows.finite (h : p.HasRows rows) (hp : p.FiniteRows) {i : Nat} {r : ModelRow α}
    (hr : rows[i]? = some r) : isFinite r.rhs = true ∧
      (r.sense = .range → isFinite r.interval.1 = true ∧ isFinite r.interval.2 = true) := by
  constructor
  · apply hp.rhs
    rw [← h.rhs]
    exact List.mem_map_of_mem (List.mem_of_getElem? hr)
  · intro hs
    refine hp.ranges i r.interval ?_ (h.rowInterval? hr)
    rw [← h.senses, List.getElem?_map, hr, Option.map_some, hs]

variable [Numeral α]

theorem HasRows.states [LawfulScalar α] (h : p.HasRows rows) (hp : p.FiniteRows) {i : Nat}
    {r : ModelRow α} (hr : rows[i]? = some r) (hterms : r.terms.Canonical) :
    Written.States p i (ExportRow.line (r.exported, i)) (r.inequalities.map Written.row) := by
  have hrow : p.matrix.row? i = some r.terms := by simp [SparseMatrix.row?, ← h.terms, hr]
  have hsense : p.senses[i]? = some r.sense := by simp [← h.senses, hr]
  have hrhs : p.rhs[i]? = some r.rhs := by simp [← h.rhs, hr]
  obtain ⟨hfinite, hends⟩ := h.finite hp hr
  rw [ModelRow.map_inequalities]
  by_cases hs : r.sense = .range
  · rw [hs] at hsense
    rw [ModelRow.exported_range hs, written_eq hterms, Comparison.ofInterval_finite (hends hs)]
    cases hsame : Scalar.same r.interval.1 r.interval.2 with
    | true => exact .joined hrow hsense (h.rowInterval? hr) hsame
    | false => exact .split hrow hsense (h.rowInterval? hr) hsame
  · obtain ⟨comparison, hsymbol, hone⟩ := Comparison.ofInterval_compared hs hfinite r.range
    rw [ModelRow.exported_compared hs, written_eq hterms, ModelRow.interval, hone]
    exact .compared hrow hsense hrhs hsymbol

theorem HasRows.text_states [LawfulScalar α] (h : p.HasRows rows) (hfit : p.ColumnsFit)
    (hrows : ∀ r ∈ rows, r.terms.Canonical) (hp : p.FiniteRows) :
    ∃ (input : Written.Input α) (lines : List String) (groups : List (List (Written.Row α)))
      (rest : String), Written.input? (p.modelWith rows) = some input ∧
      p.text? = some (s!"\\ {p.kind.name} problem\n" ++
        (if input.maximised then "Maximize\n" else "Minimize\n") ++
        s!" obj: {input.objective}\n" ++ "Subject To\n" ++ .join lines ++ "Bounds\n" ++ rest) ∧
      input.rows = groups.flatten ∧ lines.length = p.numRows ∧ groups.length = p.numRows ∧
      ∀ i < p.numRows, ∃ line group, lines[i]? = some line ∧ groups[i]? = some group ∧
        Written.States p i line group := by
  obtain ⟨input, hinput⟩ := Option.isSome_iff_exists.1 (Written.isSome_input (hfit.modelWith rows))
  obtain ⟨-, hmaximised, hobjective, hgiven⟩ := Written.of_input hinput
  refine ⟨input, (rows.map ModelRow.exported).zipIdx.map ExportRow.line,
    rows.map fun r => r.inequalities.map Written.row,
    .join ((p.exportOf rows).bounds.zipIdx.map ExportBounds.line) ++
      Export.titled "General" (p.columnsOf .integer) ++
      Export.titled "Binary" (p.columnsOf .binary) ++ "End\n", hinput, ?_, ?_, ?_, ?_, ?_⟩
  · rw [text?, export?_eq hfit h, Option.map_some, Export.render, hmaximised, hobjective]
    simp only [String.append_assoc]
    rfl
  · rw [hgiven, List.flatMap_def]
    rfl
  · simp [h.numRows]
  · simp [h.numRows]
  · intro i hi
    rw [h.numRows] at hi
    have hr : rows[i]? = some rows[i] := List.getElem?_eq_getElem hi
    exact ⟨ExportRow.line (rows[i].exported, i), rows[i].inequalities.map Written.row,
      by simp [hr], by simp [hr], h.states hp hr (hrows _ (List.getElem_mem hi))⟩

end Problem

namespace Binding

variable [LawfulScalar α] [Numeral α] {M : Type}
  {solver : Written.Input α → M → Except String (Written.Answer α) × M}

/-- While the problem has all rows of the session, its text and what a solver outside of the program
is given have the same objective and state the same rows, one after the other, whatever calls came
before. All ends are finite here, as the text has a line for an infinite one too. -/
theorem export_states_given_rows {memory : M} {p : Problem α} (hp : p.Built)
    {b : Binding (written solver)} (hb : (bind (written solver) memory p ()).result = .ok b)
    (cs : List (Command α)) (hall : ∀ isShared ∈ (b.after cs).shared, isShared = true)
    (hfinite : (b.after cs).problem.FiniteRows) :
    ∃ (input : Written.Input α) (lines : List String) (groups : List (List (Written.Row α)))
      (rest : String), Written.input? (b.after cs).session.model = some input ∧
      (b.after cs).problem.text? = some (s!"\\ {(b.after cs).problem.kind.name} problem\n" ++
        (if input.maximised then "Maximize\n" else "Minimize\n") ++
        s!" obj: {input.objective}\n" ++ "Subject To\n" ++ .join lines ++ "Bounds\n" ++ rest) ∧
      input.rows = groups.flatten ∧ lines.length = (b.after cs).problem.numRows ∧
      groups.length = (b.after cs).problem.numRows ∧
      ∀ i < (b.after cs).problem.numRows, ∃ line group, lines[i]? = some line ∧
        groups[i]? = some group ∧ Written.States (b.after cs).problem i line group := by
  have h : (b.after cs).Canonical := (canonical_of_bind hp.matrixFits hb).after cs
  rw [h.model]
  exact (h.hasRows_of_shared hall).text_states h.frame.toColumnsFit
    (fun r hr => (h.terms r hr).canonical) hfinite

def givesUp : Backend Float :=
  written fun _ (memory : Unit) => (.ok ⟨.notSolved, []⟩, memory)

def rowChanges : List (Command Float) :=
  [.addConstraint ⟨[(1, 2), (0, 0)], .equal, 2, none⟩ .both,
    .addConstraint ⟨[(0, 1), (1, 1)], .range, 1, some 0⟩ .both, .changeCoefficients [(0, 1, 0)]]

def oneRangeBound : Binding givesUp :=
  loaded givesUp () (Problem.oneRange 0 1 2) [⟨[(0, 1), (1, -1)], .range, 1, 2⟩]

def lostTerm : Binding givesUp :=
  oneRangeBound.after rowChanges

theorem lostTerm_finiteRows : lostTerm.problem.FiniteRows where
  rhs := by decide +kernel
  ranges := by
    intro row interval hs hi
    have hlt : row < 3 := (List.getElem?_eq_some_iff.1 hs).1
    have hends : ∀ row < 3, (lostTerm.problem.rowInterval? row).all fun i =>
        isFinite i.1 && isFinite i.2 := by decide +kernel
    simpa [hi] using hends row hlt

theorem lostTerm_states_given_rows :
    (Problem.oneRange 0 1 2).Built ∧
    (bind givesUp () (Problem.oneRange 0 1 2) ()).result = .ok oneRangeBound ∧
    (∀ isShared ∈ lostTerm.shared, isShared = true) ∧ lostTerm.problem.FiniteRows ∧
    ∃ (input : Written.Input Float) (lines : List String)
      (groups : List (List (Written.Row Float))),
      Written.input? lostTerm.session.model = some input ∧ input.objective = "+1 x1" ∧
      groups.flatten = [⟨"+1 x0", .atLeast, 1⟩, ⟨"+1 x0", .atMost, 3⟩, ⟨"+2 x1", .equal, 2⟩,
        ⟨"+1 x0 +1 x1", .equal, 1⟩] ∧
      ∀ i < 3, ∃ line group, lines[i]? = some line ∧ groups[i]? = some group ∧
        Written.States lostTerm.problem i line group := by
  have hbind : (bind givesUp () (Problem.oneRange 0 1 2) ()).result = .ok oneRangeBound := by rfl
  have hshared : ∀ isShared ∈ lostTerm.shared, isShared = true := by decide +kernel
  have hgiven : (Written.input? lostTerm.session.model).map (fun w => (w.objective, w.rows)) =
      some ("+1 x1", [⟨"+1 x0", .atLeast, 1⟩, ⟨"+1 x0", .atMost, 3⟩, ⟨"+2 x1", .equal, 2⟩,
        ⟨"+1 x0 +1 x1", .equal, 1⟩]) := by decide +kernel
  obtain ⟨input, lines, groups, -, hinput, -, hflat, -, -, hstates⟩ := export_states_given_rows
    (Problem.oneRange_built 0 1 2) hbind rowChanges hshared lostTerm_finiteRows
  have hinput' : Written.input? lostTerm.session.model = some input := hinput
  rw [hinput', Option.map_some, Option.some.injEq, Prod.mk.injEq] at hgiven
  exact ⟨Problem.oneRange_built 0 1 2, hbind, hshared, lostTerm_finiteRows, input, lines, groups,
    hinput, hgiven.1, hflat.symm.trans hgiven.2, hstates⟩

end Binding

end LinProg
