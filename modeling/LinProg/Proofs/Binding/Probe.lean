import LinProg.Proofs.Binding.Columns
import LinProg.Proofs.Binding.Rows

/-!
Probes. Whatever a probe changes for a run it takes back, so that an aligned binding is afterwards
as it was before, except for what is known of the last run.
-/

namespace LinProg

variable {α : Type} [Scalar α]

namespace Binding

variable {B : Backend α} {b : Binding B}

theorem solve_unmoved (b : Binding B) : b.Unmoved (solve b).state :=
  onSession_unmoved (Session.solve_unmoved b.session)

theorem solveWith_unmoved (b : Binding B) (objective : List α) :
    b.Unmoved (solveWith objective b).state := by
  by_cases ho : objective.length = b.problem.columns
  · rw [solveWith, Call.bind_of_ok (checkLength_apply _ ho)]
    exact onSession_unmoved (Session.solveFor_unmoved b.session objective)
  · rw [solveWith, Call.bind_of_error (checkLength_refused _ ho)]
    exact .refl b

theorem solveMaybeWith_unmoved (b : Binding B) (objective : Option (List α)) :
    b.Unmoved (solveMaybeWith objective b).state := by
  cases objective with
  | none => exact solve_unmoved b
  | some objective => exact solveWith_unmoved b objective

theorem withoutLast_unmoved (h : b.Aligned) (c : Constraint α) {b' : Binding B}
    (hb : (b.withConstraint .sessionOnly c).Unmoved b') : b.Unmoved (b'.withoutLast 1) := by
  have hproblem : b'.problem = b.problem := hb.problem
  have hshared : b'.shared = b.shared ++ [false] := hb.shared
  have hrows : b'.session.model.rows = b.session.model.rows ++ [.ofConstraint c] :=
    congrArg Model.rows hb.session.model
  refine ⟨hb.name, ?_, ?_, ?_, hb.session.closed⟩
  · simp [withoutLast, withRows, hproblem, hshared, h.rows.dropLast_zero]
  · simp [withoutLast, withRows, hshared]
  · have htake : b'.session.model.rows.take (b'.shared.length - 1) = b.session.model.rows := by
      simp [hrows, hshared, h.shared]
    change b'.session.model.withRows (b'.session.model.rows.take (b'.shared.length - 1)) = _
    rw [htake, hb.session.model]
    rfl

/-- Nothing is left, unless a fault of the engine left a row behind, on the session alone. -/
def Undone {β : Type} (b : Binding B) (r : Reply (Event α) (SolverError α) (Binding B) β) : Prop :=
  b.Unmoved r.state ∨ (∃ f, r.result = .error (.fault f)) ∧
    ∃ c : Constraint α, (∀ t ∈ c.terms, t.1 < b.problem.columns) ∧
      (b.withConstraint .sessionOnly c).Unmoved r.state

theorem Undone.bind_pure {β γ : Type} {c : BindingCall B β} (h : b.Undone (c b)) (g : β → γ) :
    b.Undone ((c >>= fun x => pure (g x)) b) := by
  rw [Call.bind_pure_apply]
  obtain hb | ⟨⟨f, hf⟩, hb⟩ := h
  · exact .inl hb
  · exact .inr ⟨⟨f, by rw [hf]; rfl⟩, hb⟩

theorem removeLast_probed (h : b.Aligned) (c : Constraint α) (objective : Option (List α)) :
    let b' := (solveMaybeWith objective (b.withConstraint .sessionOnly c)).state
    removeLast 1 b' = ⟨.ok (), b'.withoutLast 1, [.rowsRemoved b'.name 1]⟩ := by
  intro b'
  have hsolve := solveMaybeWith_unmoved (b.withConstraint .sessionOnly c) objective
  have hone : 1 ≤ b'.shared.length := by
    rw [hsolve.shared]
    simp [Binding.withConstraint, Binding.withRows]
  exact removeLast_apply ((h.withConstraint .sessionOnly c).of_unmoved hsolve) hone

theorem testConstraint_undone (h : b.Aligned) (c : Constraint α) (objective : Option (List α)) :
    b.Undone (testConstraint c objective b) := by
  cases hc : c.checkColumns b.problem.columns with
  | error e =>
    rw [testConstraint, Call.bind_of_error (addConstraint_refused hc .sessionOnly)]
    exact .inl (.refl b)
  | ok u =>
    have hsolve := solveMaybeWith_unmoved (b.withConstraint .sessionOnly c) objective
    rw [testConstraint, Call.bind_of_ok (addConstraint_sessionOnly_apply hc)]
    obtain ⟨result, hr⟩ | ⟨f, hf⟩ :=
      (solveMaybeWith objective).attempt_cases (b.withConstraint .sessionOnly c)
    · rw [Call.bind_of_ok hr, Call.bind_of_ok (removeLast_probed h c objective)]
      have hback := withoutLast_unmoved h c hsolve
      cases result with
      | ok solution => exact .inl hback
      | error e => exact .inl hback
    · rw [Call.bind_of_error hf]
      exact .inr ⟨⟨f, rfl⟩, c, Constraint.checkColumns_eq_ok.1 hc, hsolve⟩

theorem testComparison_undone (h : b.Aligned) (first : Nat) (sense : Sense) (second : Nat)
    (objective : Option (List α)) : b.Undone (testComparison first sense second objective b) := by
  cases hc : (Constraint.comparison first sense second : Option (Constraint α)) with
  | none =>
    simp only [testComparison, hc]
    exact .inl (solveMaybeWith_unmoved b objective)
  | some c =>
    simp only [testComparison, hc]
    exact testConstraint_undone h c objective

theorem Aligned.stored_bounds (h : b.Aligned) :
    (b.problem.lower.zip b.problem.upper).map (·.1) = b.session.model.lower ∧
      (b.problem.lower.zip b.problem.upper).map (·.2) = b.session.model.upper := by
  rw [h.model]
  exact ⟨List.map_fst_zip (Nat.le_of_eq (h.frame.lower.trans h.frame.upper.symm)),
    List.map_snd_zip (Nat.le_of_eq (h.frame.upper.trans h.frame.lower.symm))⟩

theorem isFeasible_unmoved (h : b.Aligned) (x : List α) :
    b.Unmoved (isFeasible x b).state := by
  by_cases hx : x.length = b.problem.columns
  · rw [isFeasible, Call.bind_of_ok (checkLength_apply _ hx), Call.state_bind]
    cases ho : firstOutside? 0 x b.problem.lower b.problem.upper with
    | none => exact .refl b
    | some outside =>
      cases outside with
      | some column => exact .refl b
      | none =>
        have hl : b.session.model.lower.length = x.length := by rw [h.lower_length, hx]
        have hu : b.session.model.upper.length = x.length := by rw [h.upper_length, hx]
        obtain ⟨hlower, hupper⟩ := h.stored_bounds
        have hrun :=
          onSession_unmoved (Session.fixedRun_unmoved b.session b.name hl hu hlower hupper)
        simp only [Call.ofOption_some, Call.pure_bind]
        rw [Call.bind_state (by intro code s; rfl)]
        exact hrun
  · rw [isFeasible, Call.bind_of_error (checkLength_refused _ hx)]
    exact .refl b

end Binding

end LinProg
