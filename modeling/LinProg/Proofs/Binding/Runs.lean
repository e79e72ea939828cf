import LinProg.Proofs.Binding.Reachable
import LinProg.Proofs.Scalar.Interval

/-!
The models that an engine is run on. A probe has it run on the model of the session, but for an
objective, a row or the bounds that it sets for once. Whatever it sets, every column of the model
has a kind and two bounds, which are numbers and in order.
-/

namespace LinProg

variable {α : Type} [Scalar α]

namespace Model

def withOverride (m : Model α) : Option (List α) → Model α
  | some objective => m.withObjective objective
  | none => m

def withRow (m : Model α) : Option (Constraint α) → Model α
  | some c => m.addRow c
  | none => m

def withPoint (m : Model α) : Option (List α) → Model α
  | some x => m.withBounds x x
  | none => m

@[simp] theorem numCols_withRow (m : Model α) (c : Option (Constraint α)) :
    (m.withRow c).numCols = m.numCols := by
  cases c <;> rfl

omit [Scalar α] in
@[simp] theorem numCols_withPoint (m : Model α) (x : Option (List α)) :
    (m.withPoint x).numCols = m.numCols := by
  cases x <;> rfl

end Model

namespace Probe

def override? : Probe α → Option (List α)
  | solveWith objective => some objective
  | solveMaybeWith objective | testConstraint _ objective | testBound _ _ _ objective
  | testComparison _ _ _ objective => objective
  | solve | isFeasible _ => none

def row? : Probe α → Option (Constraint α)
  | testConstraint c _ => some c
  | testBound index sense value _ => some (.bound index sense value)
  | testComparison first sense second _ => Constraint.comparison first sense second
  | solve | solveWith _ | solveMaybeWith _ | isFeasible _ => none

def point? : Probe α → Option (List α)
  | isFeasible x => some x
  | solve | solveWith _ | solveMaybeWith _ | testConstraint _ _ | testBound _ _ _ _
  | testComparison _ _ _ _ => none

def solution {B : Backend α} (p : Probe α) : BindingCall B (Solution α) :=
  match p.row? with
  | some c => Binding.testConstraint c p.override?
  | none => Binding.solveMaybeWith p.override?

theorem call_cases {B : Backend α} (p : Probe α) :
    (p.point? = none ∧ p.call (B := B) = do return .solved (← p.solution)) ∨
      ∃ x, p = .isFeasible x := by
  cases p with
  | testComparison first sense second objective =>
    refine .inl ⟨rfl, ?_⟩
    cases hc : (Constraint.comparison first sense second : Option (Constraint α)) <;>
      simp only [call, Binding.testComparison, solution, row?, override?, hc]
  | isFeasible x => exact .inr ⟨x, rfl⟩
  | _ => exact .inl ⟨rfl, rfl⟩

def model (p : Probe α) (m : Model α) : Model α :=
  ((m.withPoint p.point?).withRow p.row?).withOverride p.override?

/-- Nothing keeps the engine from being run: the objective and the point have the right lengths, the
row has columns that exist, and the point is within the bounds. -/
structure Allowed {B : Backend α} (b : Binding B) (p : Probe α) : Prop where
  override : ∀ objective ∈ p.override?, objective.length = b.problem.columns
  row : ∀ c ∈ p.row?, ∀ t ∈ c.terms, t.1 < b.problem.columns
  point : ∀ x ∈ p.point?, x.length = b.problem.columns ∧
    Binding.firstOutside? 0 x b.problem.lower b.problem.upper = some none

end Probe

namespace Binding

variable {B : Backend α} {b : Binding B} {m : Model α}

theorem Aligned.numCols (h : b.Aligned) : b.session.model.numCols = b.problem.columns := by
  rw [h.model]
  exact h.frame.objective

theorem ran_solveWith {objective : List α} (hm : .ran m ∈ (solveWith objective b).events) :
    m = b.session.model.withObjective objective ∧ objective.length = b.problem.columns := by
  by_cases ho : objective.length = b.problem.columns
  · rw [solveWith, Call.bind_of_ok (checkLength_apply _ ho)] at hm
    let s := b.session.withModel (b.session.model.withObjective objective)
    change .ran m ∈ (Session.solve s).events ++ [] at hm
    rw [List.append_nil] at hm
    exact ⟨Session.model_of_ran_solve hm, ho⟩
  · rw [solveWith, Call.bind_of_error (checkLength_refused _ ho)] at hm
    cases hm

theorem ran_solveMaybeWith {objective : Option (List α)}
    (hm : .ran m ∈ (solveMaybeWith objective b).events) :
    m = b.session.model.withOverride objective ∧
      ∀ o ∈ objective, o.length = b.problem.columns := by
  cases objective with
  | none => exact ⟨Session.model_of_ran_solve hm, by simp⟩
  | some objective =>
    obtain ⟨rfl, ho⟩ := ran_solveWith hm
    exact ⟨rfl, by simpa using ho⟩

theorem ran_testConstraint (h : b.Aligned) {c : Constraint α} {objective : Option (List α)}
    (hm : .ran m ∈ (testConstraint c objective b).events) :
    m = (b.session.model.addRow c).withOverride objective ∧
      (∀ o ∈ objective, o.length = b.problem.columns) ∧
      ∀ t ∈ c.terms, t.1 < b.problem.columns := by
  cases hc : c.checkColumns b.problem.columns with
  | error e =>
    rw [testConstraint, Call.bind_of_error (addConstraint_refused hc .sessionOnly)] at hm
    cases hm
  | ok u =>
    rw [testConstraint, Call.bind_of_ok (addConstraint_sessionOnly_apply hc)] at hm
    obtain hm | hm := List.mem_append.1 hm
    · simp at hm
    · obtain hm | ⟨result, -, hm⟩ := Call.mem_events_bind hm
      · rw [Call.attempt_events] at hm
        obtain ⟨hmodel, ho⟩ := ran_solveMaybeWith hm
        exact ⟨hmodel, ho, Constraint.checkColumns_eq_ok.1 hc⟩
      · rw [Call.attempt_state, Call.bind_of_ok (removeLast_probed h c objective)] at hm
        simp at hm

theorem ran_isFeasible (h : b.Aligned) {x : List α} (hm : .ran m ∈ (isFeasible x b).events) :
    m = b.session.model.withBounds x x ∧ x.length = b.problem.columns ∧
      firstOutside? 0 x b.problem.lower b.problem.upper = some none := by
  by_cases hx : x.length = b.problem.columns
  · rw [isFeasible, Call.bind_of_ok (checkLength_apply _ hx), Call.state_bind] at hm
    cases ho : firstOutside? 0 x b.problem.lower b.problem.upper with
    | none => simp [ho, Call.ofOption] at hm
    | some outside =>
      cases outside with
      | some column => simp [ho] at hm
      | none =>
        have hl : b.session.model.lower.length = x.length := by rw [h.lower_length, hx]
        have hu : b.session.model.upper.length = x.length := by rw [h.upper_length, hx]
        obtain ⟨s', hs', -, hrun⟩ := Session.pinnedRun_apply b.session b.name hl hu
        simp only [ho, Call.ofOption_some, Call.pure_bind, List.nil_append, Call.bind_pure_apply,
          onSession, Call.on_apply, Call.thenAlways_apply, Session.events_setAllBounds,
          List.append_nil] at hm
        change .ran m ∈ (Session.pinnedRun b.name x b.session).events at hm
        rw [hrun] at hm
        obtain hm | ⟨code, -, hm⟩ := Call.mem_events_bind hm
        · rw [Session.model_of_ran hm, hs'.model]
          exact ⟨rfl, hx, rfl⟩
        · simp at hm
  · rw [isFeasible, Call.bind_of_error (checkLength_refused _ hx)] at hm
    cases hm

end Binding

open Binding in
theorem Probe.ran {B : Backend α} {b : Binding B} (h : b.Aligned) (p : Probe α) {m : Model α}
    (hm : .ran m ∈ (p.call b).events) : m = p.model b.session.model ∧ p.Allowed b := by
  obtain ⟨hpoint, hcall⟩ | ⟨x, rfl⟩ := p.call_cases (B := B)
  · rw [hcall, Call.bind_pure_apply] at hm
    change .ran m ∈ (p.solution b).events at hm
    rw [model, hpoint]
    cases hrow : p.row? with
    | none =>
      rw [solution, hrow] at hm
      obtain ⟨rfl, ho⟩ := ran_solveMaybeWith hm
      exact ⟨rfl, ho, by simp [hrow], by simp [hpoint]⟩
    | some c =>
      rw [solution, hrow] at hm
      obtain ⟨rfl, ho, hc⟩ := ran_testConstraint h hm
      exact ⟨rfl, ho, by simpa [hrow] using hc, by simp [hpoint]⟩
  · rw [call, Call.bind_pure_apply] at hm
    obtain ⟨rfl, hx⟩ := ran_isFeasible h hm
    exact ⟨rfl, by simp [override?], by simp [row?], by simpa [point?] using hx⟩

namespace Probe

variable {B : Backend α} {b : Binding B} {p : Probe α}

theorem objective_model (p : Probe α) (m : Model α) :
    (p.model m).objective = p.override?.getD m.objective := by
  have hm : ((m.withPoint p.point?).withRow p.row?).objective = m.objective := by
    cases p.row? <;> cases p.point? <;> rfl
  rw [model]
  cases p.override? with
  | none => exact hm
  | some objective => rfl

theorem Allowed.numCols (hp : p.Allowed b) (h : b.Aligned) :
    (p.model b.session.model).numCols = b.problem.columns := by
  rw [Model.numCols, objective_model]
  cases ho : p.override? with
  | none => exact h.numCols
  | some objective => exact hp.override objective ho

end Probe

structure Model.Bounded (m : Model α) : Prop extends m.ColumnsFit where
  bounds : ∀ b ∈ m.lower.zip m.upper, Problem.badBounds b = false

namespace Model.Bounded

variable {m : Model α}

theorem withObjective (h : m.Bounded) {objective : List α} (ho : objective.length = m.numCols) :
    (m.withObjective objective).Bounded :=
  ⟨h.toColumnsFit.withObjective ho, h.bounds⟩

theorem addRow (h : m.Bounded) (c : Constraint α) : (m.addRow c).Bounded :=
  ⟨⟨h.lower, h.upper, h.kinds⟩, h.bounds⟩

theorem badBounds_point {v : α} (hv : Scalar.isNaN v = false) :
    Problem.badBounds (v, v) = false := by
  simp [Problem.badBounds, hv, Scalar.lt, Extended.lt]

theorem pinned (h : m.Bounded) {x : List α} (hx : x.length = m.numCols)
    (hnumber : ∀ v ∈ x, Scalar.isNaN v = false) : (m.withBounds x x).Bounded := by
  have hzip : x.zip x = x.map fun v => (v, v) := by
    simpa using List.zip_map' (l := x) (f := id) (g := id)
  refine ⟨h.toColumnsFit.pinned hx, fun b hb => ?_⟩
  rw [withBounds, hzip] at hb
  obtain ⟨v, hv, rfl⟩ := List.mem_map.1 hb
  exact badBounds_point (hnumber v hv)

end Model.Bounded

omit [Scalar α] in
theorem Problem.ColumnsFit.modelWith {p : Problem α} (h : p.ColumnsFit) (rows : List (ModelRow α)) :
    (p.modelWith rows).ColumnsFit where
  lower := h.lower.trans h.objective.symm
  upper := h.upper.trans h.objective.symm
  kinds := h.kinds.trans h.objective.symm

namespace Binding

variable {B : Backend α} {b : Binding B} {m : Model α}

theorem Aligned.bounded (h : b.Aligned) : b.session.model.Bounded := by
  rw [h.model]
  exact ⟨h.frame.toColumnsFit.modelWith _, h.frame.bounds⟩

theorem number_of_firstOutside? {column : Nat} {x lower upper : List α}
    (h : firstOutside? column x lower upper = some none) : ∀ v ∈ x, Scalar.isNaN v = false := by
  induction x generalizing column lower upper with
  | nil => simp
  | cons v x ih =>
    match lower, upper with
    | l :: lower, u :: upper =>
      rw [firstOutside?] at h
      split at h
      · rename_i hin
        have hv := (Extended.ne_nan_of_le (Bool.and_eq_true_iff.1 hin).1).2
        exact List.forall_mem_cons.2 ⟨Scalar.isNaN_eq_false.2 hv, ih h⟩
      · simp at h

end Binding

open Binding in
theorem Probe.ran_bounded {B : Backend α} {b : Binding B} (h : b.Aligned) (p : Probe α)
    {m : Model α} (hm : .ran m ∈ (p.call b).events) : m.Bounded := by
  obtain ⟨rfl, hp⟩ := p.ran h hm
  have hpoint : (b.session.model.withPoint p.point?).Bounded := by
    cases hx : p.point? with
    | none => exact h.bounded
    | some x =>
      obtain ⟨hlength, hinside⟩ := hp.point x hx
      exact h.bounded.pinned (hlength.trans h.numCols.symm) (number_of_firstOutside? hinside)
  have hrow : ((b.session.model.withPoint p.point?).withRow p.row?).Bounded := by
    cases p.row? with
    | none => exact hpoint
    | some c => exact hpoint.addRow c
  rw [model]
  cases ho : p.override? with
  | none => exact hrow
  | some objective =>
    refine hrow.withObjective ((hp.override objective ho).trans ?_)
    rw [Model.numCols_withRow, Model.numCols_withPoint, h.numCols]

namespace Binding

/-- The models that an engine may be given: the session's, and those of the runs of a probe. -/
def Gives {B : Backend α} (b : Binding B) (m : Model α) : Prop :=
  m = b.session.model ∨ ∃ p : Probe α, .ran m ∈ (p.call b).events

theorem Reachable.bounded {B : Backend α} {b : Binding B} (h : b.Reachable) {m : Model α}
    (hm : b.Gives m) : m.Bounded := by
  obtain rfl | ⟨p, hm⟩ := hm
  · exact h.aligned.bounded
  · exact p.ran_bounded h.aligned hm

end Binding

end LinProg
