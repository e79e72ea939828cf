import LinProg.Problem.Point
import LinProg.Proofs.Backend.Reports
import LinProg.Proofs.Binding.Answer

namespace LinProg

variable {α : Type} [Scalar α]

section Runs

variable {B : Backend α} {b : Binding B}

theorem Probe.outcome_of_solved (h : b.Aligned) (p : Probe α) {s : Solution α}
    (hs : (p.call b).result = .ok (.solved s)) :
    b.session.closed = false ∧ (p.model b.session.model).numCols = b.problem.columns ∧
      ∃ o memory, B.run (p.model b.session.model) b.session.memory = (.ok o, memory) ∧
        s = o.solution B (p.model b.session.model).numCols := by
  obtain ⟨hanswer, hp⟩ := p.answer_of_solved h hs
  obtain ⟨hopen, hrun⟩ := Session.answer_eq_ok hanswer
  exact ⟨hopen, hp.numCols h, hrun⟩

theorem Binding.Aligned.objectiveAt (h : b.Aligned) (p : Probe α) (x : List α) :
    (p.model b.session.model).objectiveAt x =
      (b.problem.withObjective (p.override?.getD b.problem.objective)).objectiveAt x := by
  have hobjective : b.session.model.objective = b.problem.objective :=
    congrArg Model.objective h.model
  rw [Model.objectiveAt, p.objective_model, hobjective]
  rfl

end Runs

variable [Numeral α]

/-- The backends of `BuiltIn` with the codes of theirs that stand for a point, but for the searching
one: it keeps values that are no point as well, and `searched_solutions` is about it. The engines
within the program are taken to find one value for each column. -/
inductive Backend.Points : (B : Backend α) → (B.Code → Prop) → Prop
  | embedded {engine : Embedded.Input α → Embedded.Answer α}
    (h : Embedded.OnePerColumn engine) : Points (embedded engine) fun code => code = .solved
  | ranged {engine : Ranged.Input α → Ranged.Answer α} (takes : Options → Ranged.Input α → Bool)
    (options : Options) (h : Ranged.OnePerColumn engine) :
    Points (ranged takes engine options) fun code => code = .optimal
  | written {M : Type} (solver : Written.Input α → M → Except String (Written.Answer α) × M) :
    Points (written solver) fun code => code = .optimal ∨ code = .subOptimal

namespace Backend.Points

variable {B : Backend α} {isPoint : B.Code → Prop}

theorem hasPoint_iff (hB : B.Points isPoint) (code : B.Code) :
    B.hasPoint code = true ↔ isPoint code := by
  cases hB with
  | embedded h => exact beq_iff_eq
  | ranged takes options h => exact beq_iff_eq
  | written solver => exact Written.Code.hasPoint_iff

theorem of_optimal (hB : B.Points isPoint) {code : B.Code} (hc : B.classify code = .optimal) :
    isPoint code := by
  cases hB with
  | embedded h => exact Embedded.Code.classify_eq_optimal.1 hc
  | ranged takes options h => exact Ranged.Code.classify_eq_optimal.1 hc
  | written solver => exact .inl (Written.Code.classify_eq_optimal.1 hc)

theorem reports (hB : B.Points isPoint) {m : Model α} {memory : B.Memory}
    {o : Outcome B.Code α} (ho : (B.run m memory).1 = .ok o) : o.Reports isPoint m := by
  cases hB with
  | embedded h => exact Embedded.run_reports h ho
  | ranged takes options h => exact Ranged.run_reports h ho
  | written solver => exact Written.run_reports ho

end Backend.Points

namespace Binding

/-- Every solution is well-formed. It has one value for each column; it is feasible exactly if the
run of its own model ended with a code that stands for a point, as every optimal one does; and it
has the objective that was in force for that run at its values, or no number at all. An outside
solver's values are those of its reply to that run, by the names of the columns. -/
theorem solutions_well_formed :
    (∀ {B : Backend α} {isPoint : B.Code → Prop}, B.Points isPoint →
      ∀ {b : Binding B}, b.Reachable → ∀ (p : Probe α) (s : Solution α),
      (p.call b).result = .ok (.solved s) →
        ∃ o memory, B.run (p.model b.session.model) b.session.memory = (.ok o, memory) ∧
          s.values.length = b.problem.columns ∧ s.status = B.classify o.code ∧
          (s.feasible = true ↔ isPoint o.code) ∧ (s.isOptimal = true → s.feasible = true) ∧
          (s.feasible = true → s.objective =
            (b.problem.withObjective (p.override?.getD b.problem.objective)).objectiveAt
              s.values) ∧
          (s.feasible = false → s.objective = Scalar.nan ∧ ∀ v ∈ s.values, v = Scalar.nan)) ∧
    (∀ {M : Type} (solver : Written.Input α → M → Except String (Written.Answer α) × M)
      {b : Binding (written solver)}, b.Reachable → ∀ (p : Probe α) (s : Solution α),
      (p.call b).result = .ok (.solved s) → s.feasible = true →
        ∃ input a memory, Written.input? (p.model b.session.model) = some input ∧
          solver input b.session.memory = (.ok a, memory) ∧
          ∀ i < b.problem.columns,
            s.values[i]? = some ((a.values.lookup (Text.columnName i)).getD 0)) ∧
    Function.Injective Text.columnName := by
  refine ⟨fun {B isPoint} hB b h p s hs => ?_, fun solver b h p s hs hfeasible => ?_,
    Text.columnName_injective⟩
  · obtain ⟨-, hcolumns, o, memory, hrun, rfl⟩ := p.outcome_of_solved h.aligned hs
    have hreports : o.Reports isPoint (p.model b.session.model) := hB.reports (by rw [hrun])
    have hfeasible := (hreports.feasible_iff (B := B)).trans
      (and_iff_right_of_imp (hB.hasPoint_iff o.code).2)
    refine ⟨o, memory, hrun, hreports.length_values.trans hcolumns, rfl, hfeasible,
      fun hoptimal => ?_, fun hf => ?_, fun hf => ?_⟩
    · exact hfeasible.2 (hB.of_optimal (eq_of_beq hoptimal))
    · rw [← h.aligned.objectiveAt]
      exact hreports.objective_eq (hfeasible.1 hf)
    · exact hreports.nan_of_nothing fun hpoint => by simp [hfeasible.2 hpoint] at hf
  · obtain ⟨-, hcolumns, o, memory, hrun, rfl⟩ := p.outcome_of_solved h.aligned hs
    obtain ⟨input, a, memory', hinput, hreply, rfl⟩ := Written.run_eq_ok (congrArg Prod.fst hrun)
    refine ⟨input, a, memory', hinput, hreply, fun i hi => ?_⟩
    rw [Written.values_of_feasible hinput hfeasible, hcolumns]
    simp [hi]

omit [Numeral α] in
/-- A search that ran out of time leaves values behind, with the objective at them, but no point. -/
theorem searched_solutions {engine : Searched.Input α → Searched.Answer α}
    (hengine : Searched.OnePerColumn engine) {parameters : List (String × String)}
    {b : Binding (searched engine parameters)} (h : b.Reachable) (p : Probe α) {s : Solution α}
    (hs : (p.call b).result = .ok (.solved s)) :
    ∃ o : Outcome Searched.Code α,
      Searched.run engine parameters (p.model b.session.model) = .ok o ∧
      s.values.length = b.problem.columns ∧ (s.feasible = true ↔ o.code = .optimal) ∧
      (s.isOptimal = true → s.feasible = true) ∧
      (o.code.hasValues = true → s.objective =
        (b.problem.withObjective (p.override?.getD b.problem.objective)).objectiveAt s.values) ∧
      (o.code.hasValues = false → s.objective = Scalar.nan ∧ ∀ v ∈ s.values, v = Scalar.nan) := by
  obtain ⟨-, hcolumns, o, memory, hrun, rfl⟩ := p.outcome_of_solved h.aligned hs
  have hreports := Searched.run_reports hengine (congrArg Prod.fst hrun)
  have hfeasible : (o.solution (searched engine parameters)
      (p.model b.session.model).numCols).feasible = true ↔ o.code = Searched.Code.optimal := by
    refine (hreports.feasible_iff (B := searched engine parameters)).trans ?_
    exact (and_iff_left_of_imp fun hpoint => by rw [eq_of_beq hpoint]; rfl).trans beq_iff_eq
  refine ⟨o, congrArg Prod.fst hrun, hreports.length_values.trans hcolumns, hfeasible,
    fun hoptimal => ?_, fun hc => ?_, fun hc => ?_⟩
  · exact hfeasible.2 (Searched.Code.classify_eq_optimal.1 (eq_of_beq hoptimal))
  · rw [← h.aligned.objectiveAt]
    exact hreports.objective_eq hc
  · exact hreports.nan_of_nothing (by simpa using hc)

def halfReply (_ : Written.Input Float) (_ : Unit) : Except String (Written.Answer Float) × Unit :=
  (.ok ⟨.subOptimal, [("x1", 2.5)]⟩, ())

def twoBoxes : Problem Float where
  columns := 2
  kind := .linear
  direction := .maximise
  objective := [1, 1]
  lower := [0, 0]
  upper := [4, 4]
  kinds := [.continuous, .continuous]
  matrix := ⟨2, []⟩
  rhs := []
  senses := []
  ranges := none

def halfReplied : Binding (written halfReply) :=
  loaded (written halfReply) () twoBoxes []

theorem halfReplied_solution_well_formed :
    let p := Probe.testBound 0 .lessEq 1 (some [1, 3])
    halfReplied.Reachable ∧ ∃ s, (p.call halfReplied).result = .ok (.solved s) ∧
      s.feasible = true ∧ s.isOptimal = false ∧ s.values.length = 2 ∧
      s.objective = (twoBoxes.withObjective [1, 3]).objectiveAt s.values ∧
      Scalar.same s.objective 7.5 = true ∧
      ∃ input a memory, Written.input? (p.model halfReplied.session.model) = some input ∧
        halfReply input halfReplied.session.memory = (.ok a, memory) ∧
        ∀ i < 2, s.values[i]? = some ((a.values.lookup (Text.columnName i)).getD 0) := by
  intro p
  have hbind : (bind (written halfReply) () twoBoxes ()).result = .ok halfReplied := rfl
  have hreachable : halfReplied.Reachable := .bound hbind
  have hs : ∃ s, (p.call halfReplied).result = .ok (.solved s) ∧ s.feasible = true ∧
      s.isOptimal = false ∧ Scalar.same s.objective 7.5 = true :=
    ⟨_, rfl, by decide +kernel, by decide +kernel, by decide +kernel⟩
  obtain ⟨s, hs, hfeasible, hoptimal, hobjective⟩ := hs
  obtain ⟨hform, hreply, -⟩ := solutions_well_formed (α := Float)
  obtain ⟨o, memory, hrun, hlength, -, -, -, hdot, -⟩ :=
    hform (.written halfReply) hreachable p s hs
  exact ⟨hreachable, s, hs, hfeasible, hoptimal, hlength, hdot hfeasible, hobjective,
    hreply halfReply hreachable p s hs hfeasible⟩

end Binding

end LinProg
