import LinProg.Backend.Searched
import LinProg.Proofs.Backend.Rows
import LinProg.Proofs.Session.Answer
import LinProg.Proofs.Text.Sum

/-!
What the runs of the backends report. A code with which a backend has values comes with one for each
column and with the objective at them; any other code comes with nothing.
-/

namespace LinProg

variable {α : Type} [Scalar α]

namespace Outcome

variable {C : Type} {hasValues : C → Prop} {m : Model α}

structure Reports (hasValues : C → Prop) (m : Model α) (o : Outcome C α) : Prop where
  found : hasValues o.code → ∃ values, values.length = m.numCols ∧ o.values = some values ∧
    o.objective = some (m.objectiveAt values)
  nothing : ¬ hasValues o.code → o.values = none ∧ o.objective = none

theorem reports_ofValues {code : C} {values : List α} (hc : hasValues code)
    (hl : values.length = m.numCols) : (ofValues code m values).Reports hasValues m :=
  ⟨fun _ => ⟨values, hl, rfl, rfl⟩, fun hno => absurd hc hno⟩

theorem reports_withoutValues {code : C} (hc : ¬ hasValues code) :
    (withoutValues code).Reports hasValues m :=
  ⟨fun h => absurd h hc, fun _ => ⟨rfl, rfl⟩⟩

namespace Reports

variable {B : Backend α} {hasValues : B.Code → Prop} {o : Outcome B.Code α}

theorem length_values (h : o.Reports hasValues m) :
    (o.solution B m.numCols).values.length = m.numCols := by
  by_cases hc : hasValues o.code
  · obtain ⟨values, hl, hvalues, -⟩ := h.found hc
    simp [solution, hvalues, hl]
  · simp [solution, (h.nothing hc).1]

theorem feasible_iff (h : o.Reports hasValues m) :
    (o.solution B m.numCols).feasible = true ↔ B.hasPoint o.code = true ∧ hasValues o.code := by
  by_cases hc : hasValues o.code
  · obtain ⟨values, -, hvalues, -⟩ := h.found hc
    simp [solution, hvalues, hc]
  · simp [solution, (h.nothing hc).1, hc]

theorem objective_eq (h : o.Reports hasValues m) (hc : hasValues o.code) :
    (o.solution B m.numCols).objective = m.objectiveAt (o.solution B m.numCols).values := by
  obtain ⟨values, -, hvalues, hobjective⟩ := h.found hc
  simp [solution, hvalues, hobjective]

theorem nan_of_nothing (h : o.Reports hasValues m) (hc : ¬ hasValues o.code) :
    (o.solution B m.numCols).objective = Scalar.nan ∧
      ∀ v ∈ (o.solution B m.numCols).values, v = Scalar.nan := by
  obtain ⟨hvalues, hobjective⟩ := h.nothing hc
  simp [solution, hvalues, hobjective]

end Reports

end Outcome

omit [Scalar α] in
theorem Model.length_columns {m : Model α} {γ : Type} {f : α × Nat → Option γ} {columns : List γ}
    (h : m.objective.zipIdx.mapM f = some columns) : columns.length = m.numCols := by
  simpa [numCols] using length_of_mapM h

namespace Embedded

variable {m : Model α} {engine : Input α → Answer α}

omit [Scalar α] in
theorem Code.classify_eq_optimal {code : Code} : code.classify = .optimal ↔ code = .solved := by
  cases code <;> simp [Code.classify]

def OnePerColumn (engine : Input α → Answer α) : Prop :=
  ∀ input values, engine input = .solved values → values.length = input.columns.length

theorem length_columns {e : Input α} (he : input? m = some e) : e.columns.length = m.numCols :=
  Model.length_columns (of_input he).1

theorem run_reports (hengine : OnePerColumn engine) {o : Outcome Code α}
    (ho : run engine m = .ok o) : o.Reports (· = .solved) m := by
  rw [run] at ho
  split at ho
  · obtain rfl := Except.ok.inj ho
    exact Outcome.reports_withoutValues (by simp)
  · split at ho
    · rename_i input hinput
      obtain rfl := Except.ok.inj ho
      cases ha : engine input with
      | solved values =>
        exact Outcome.reports_ofValues rfl ((hengine input values ha).trans (length_columns hinput))
      | infeasible | unbounded | failed => exact Outcome.reports_withoutValues (by simp)
    · cases ho

end Embedded

namespace Ranged

variable {m : Model α} {engine : Input α → Answer α}

omit [Scalar α] in
theorem Code.classify_eq_optimal {code : Code} : code.classify = .optimal ↔ code = .optimal := by
  cases code <;> simp [Code.classify]

def OnePerColumn (engine : Input α → Answer α) : Prop :=
  ∀ input, (engine input).code = .optimal → (engine input).values.length = input.columns.length

theorem length_columns {g : Input α} (hg : input? m = some g) : g.columns.length = m.numCols :=
  Model.length_columns (of_input hg).1

theorem input_of_accepted {takes : Options → Input α → Bool} {options : Options} {g : Input α}
    (hg : accepted takes options m = .ok g) : input? m = some g := by
  rw [accepted] at hg
  split at hg
  · cases hg
  · rename_i input hinput
    split at hg
    · obtain rfl := Except.ok.inj hg
      exact hinput
    · cases hg

theorem run_reports (hengine : OnePerColumn engine) {takes : Options → Input α → Bool}
    {options : Options} {o : Outcome Code α} (ho : run takes engine options m = .ok o) :
    o.Reports (· = .optimal) m := by
  rw [run] at ho
  split at ho
  · rename_i input hinput
    obtain rfl := Except.ok.inj ho
    rw [outcome]
    split
    · rename_i hc
      exact Outcome.reports_ofValues rfl
        ((hengine input hc).trans (length_columns (input_of_accepted hinput)))
    · rename_i hc
      exact Outcome.reports_withoutValues hc
  · cases ho

end Ranged

namespace Searched

variable {m : Model α} {engine : Input α → Answer α}

omit [Scalar α] in
theorem Code.classify_eq_optimal {code : Code} : code.classify = .optimal ↔ code = .optimal := by
  cases code <;> simp [Code.classify]

def OnePerColumn (engine : Input α → Answer α) : Prop :=
  ∀ input, (engine input).code.hasValues = true →
    (engine input).values.length = input.columns.length

theorem length_columns {parameters : List (String × String)} {i : Input α}
    (hi : input? parameters m = some i) : i.columns.length = m.numCols := by
  simp only [input?, Option.bind_eq_bind, Option.bind_eq_some_iff, Option.pure_def,
    Option.some.injEq] at hi
  obtain ⟨columns, hcolumns, rows, -, rfl⟩ := hi
  exact Model.length_columns hcolumns

theorem run_reports (hengine : OnePerColumn engine) {parameters : List (String × String)}
    {o : Outcome Code α} (ho : run engine parameters m = .ok o) :
    o.Reports (·.hasValues = true) m := by
  rw [run] at ho
  split at ho
  · rename_i input hinput
    obtain rfl := Except.ok.inj ho
    rw [outcome]
    split
    · rename_i hc
      exact Outcome.reports_ofValues hc ((hengine input hc).trans (length_columns hinput))
    · rename_i hc
      exact Outcome.reports_withoutValues hc
  · cases ho

end Searched

namespace Written

open Text (columnName)

variable [Numeral α] {m : Model α} {M : Type}
  {solver : Input α → M → Except String (Answer α) × M}

omit [Scalar α] [Numeral α] in
theorem Code.hasPoint_iff {code : Code} :
    code.hasPoint = true ↔ code = .optimal ∨ code = .subOptimal := by
  cases code <;> simp [Code.hasPoint]

omit [Scalar α] [Numeral α] in
theorem Code.classify_eq_optimal {code : Code} : code.classify = .optimal ↔ code = .optimal := by
  cases code <;> simp [Code.classify]

theorem names_of_input {w : Input α} (hw : input? m = some w) :
    w.columns.map (·.name) = (List.range m.numCols).map columnName := by
  refine map_of_mapM (fun column v hv => ?_) (of_input hw).1
  simp only [columnAt?, Option.bind_eq_bind, Option.bind_eq_some_iff, Option.pure_def,
    Option.some.injEq] at hv
  obtain ⟨_, -, _, -, rfl⟩ := hv
  rfl

theorem columnValues_eq {w : Input α} (hw : input? m = some w) (values : List (String × α)) :
    columnValues w values =
      (List.range m.numCols).map fun i => (values.lookup (columnName i)).getD 0 := by
  have hnames := congrArg (List.map fun name => (values.lookup name).getD 0) (names_of_input hw)
  simpa [columnValues, Function.comp_def] using hnames

theorem run_eq_ok {memory : M} {o : Outcome Code α} (ho : (run solver m memory).1 = .ok o) :
    ∃ w a memory', input? m = some w ∧ solver w memory = (.ok a, memory') ∧ o = outcome m w a := by
  rw [run] at ho
  split at ho
  · cases ho
  · rename_i w hw
    rcases hreply : solver w memory with ⟨answer, memory'⟩
    rw [hreply] at ho
    cases answer with
    | ok a => exact ⟨w, a, memory', hw, hreply, (Except.ok.inj ho).symm⟩
    | error message => cases ho

theorem values_of_feasible {w : Input α} (hw : input? m = some w) {a : Answer α} {n : Nat}
    (hf : ((outcome m w a).solution (written solver) n).feasible = true) :
    ((outcome m w a).solution (written solver) n).values =
      (List.range m.numCols).map fun i => (a.values.lookup (columnName i)).getD 0 := by
  rw [outcome] at hf ⊢
  split at hf
  · rename_i hc
    rw [if_pos hc, ← columnValues_eq hw]
    rfl
  · simp [Outcome.solution, Outcome.withoutValues] at hf

theorem run_reports {memory : M} {o : Outcome Code α} (ho : (run solver m memory).1 = .ok o) :
    o.Reports (fun code => code = .optimal ∨ code = .subOptimal) m := by
  obtain ⟨w, a, -, hw, -, rfl⟩ := run_eq_ok ho
  rw [outcome]
  split
  · rename_i hc
    exact Outcome.reports_ofValues (Code.hasPoint_iff.1 hc) (by simp [columnValues_eq hw])
  · rename_i hc
    exact Outcome.reports_withoutValues fun h => hc (Code.hasPoint_iff.2 h)

end Written

end LinProg
