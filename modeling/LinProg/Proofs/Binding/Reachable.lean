import LinProg.Backend.Embedded
import LinProg.Proofs.Binding.Command
import LinProg.Proofs.Problem.RowChange

namespace LinProg.Binding

variable {α : Type} [Scalar α] {B : Backend α}

inductive Reachable : Binding B → Prop
  | bound {memory : B.Memory} {p : Problem α} {b : Binding B}
    (h : (bind B memory p ()).result = .ok b) : Reachable b
  | call {b : Binding B} (h : Reachable b) (c : Command α) : Reachable (c.call b).state

theorem Reachable.aligned {b : Binding B} (h : b.Reachable) : b.Aligned := by
  induction h with
  | bound h => exact bind_aligned h
  | call h c ih => exact (c.step ih).aligned ih

/-- The binding after some calls, whether or not they go through. -/
def after (b : Binding B) (cs : List (Command α)) : Binding B :=
  cs.foldl (fun b c => (c.call b).state) b

@[simp] theorem after_cons (b : Binding B) (c : Command α) (cs : List (Command α)) :
    b.after (c :: cs) = (c.call b).state.after cs := rfl

theorem keeps_after {P : Binding B → Prop} (hstep : ∀ b (c : Command α), P b → P (c.call b).state)
    {b : Binding B} (h : P b) (cs : List (Command α)) : P (b.after cs) := by
  induction cs generalizing b with
  | nil => exact h
  | cons c cs ih => exact ih (hstep b c h)

/-- The rows that both sides have are the rows of the problem, in their order; all else is the
same on both sides. Where all rows are shared, the session has the model of the problem. -/
theorem reachable_sides_agree {b : Binding B} (h : b.Reachable) :
    b.shared.length = b.session.model.numRows ∧
      b.shared.count true = b.problem.numRows ∧
      b.problem.model? =
        some { b.session.model with rows := chosen b.shared b.session.model.rows } ∧
      ((∀ isShared ∈ b.shared, isShared = true) → b.problem.model? = some b.session.model) := by
  have ha := h.aligned
  exact ⟨ha.shared, ha.numRows.symm, ha.model?, ha.model?_of_shared⟩

def oneColumn : Problem Extended where
  columns := 1
  kind := .linear
  direction := .maximise
  objective := [1]
  lower := [.negInf]
  upper := [.posInf]
  kinds := [.continuous]
  matrix := ⟨1, []⟩
  rhs := []
  senses := []
  ranges := none

def barren : Backend Extended :=
  embedded fun _ => .infeasible

def bare : Binding barren :=
  loaded barren () oneColumn []

/-- A row on both sides and one on the session alone. -/
def mixedRows : Binding barren :=
  ((Command.addBound 0 .greaterEq 0 .sessionOnly).call
    ((Command.addBound 0 .lessEq 1 .both).call bare).state).state

theorem bare_reachable : bare.Reachable := by
  have hbind : (bind barren () oneColumn ()).result = .ok bare := rfl
  exact .bound hbind

theorem mixedRows_reachable : mixedRows.Reachable :=
  (bare_reachable.call _).call _

theorem mixedRows_sides_agree : mixedRows.Reachable ∧ mixedRows.shared = [true, false] ∧
    mixedRows.shared.length = mixedRows.session.model.numRows ∧
    mixedRows.shared.count true = mixedRows.problem.numRows ∧
    mixedRows.problem.model? = some { mixedRows.session.model with
      rows := chosen mixedRows.shared mixedRows.session.model.rows } ∧
    ((∀ isShared ∈ mixedRows.shared, isShared = true) →
      mixedRows.problem.model? = some mixedRows.session.model) :=
  ⟨mixedRows_reachable, rfl, reachable_sides_agree mixedRows_reachable⟩

/-- A probe that comes back, with an answer or an error, has left both sides as they were. -/
theorem probe_leaves_no_trace {b : Binding B} (h : b.Reachable) (p : Probe α)
    (hr : (p.call b).Returned) :
    (p.call b).state.problem = b.problem ∧ (p.call b).state.shared = b.shared ∧
      (p.call b).state.session.model = b.session.model ∧
      (p.call b).state.session.closed = b.session.closed ∧ (p.call b).state.name = b.name := by
  have hb := p.call_unmoved h.aligned hr
  exact ⟨hb.problem, hb.shared, hb.session.model, hb.session.closed, hb.name⟩

theorem mixedRows_probe_leaves_no_trace :
    let p := Probe.testBound 0 .lessEq 0 (some [1])
    mixedRows.Reachable ∧ (p.call mixedRows).Returned ∧
      (p.call mixedRows).state.problem = mixedRows.problem ∧
      (p.call mixedRows).state.shared = mixedRows.shared ∧
      (p.call mixedRows).state.session.model = mixedRows.session.model ∧
      (p.call mixedRows).state.session.closed = mixedRows.session.closed ∧
      (p.call mixedRows).state.name = mixedRows.name := by
  intro p
  have hreturned : (p.call mixedRows).Returned := Reply.returned_of_isOk (by decide +kernel)
  exact ⟨mixedRows_reachable, hreturned, probe_leaves_no_trace mixedRows_reachable p hreturned⟩

theorem Reachable.validate_iff {b : Binding B} (h : b.Reachable) :
    b.problem.validate = .ok () ↔ b.problem.RangesGiven := by
  rw [Problem.validate_eq_ok]
  exact ⟨fun hv => hv.2.2, fun hg => ⟨h.aligned.frame, ⟨_, h.aligned.rows⟩, hg⟩⟩

/-- A change of the rows that succeeds keeps a problem valid, except for one case: the problem has
no range values, and of the new rows some are ranges but none has a range value. The same is the
only thing that a call on a binding can do to the validity of its problem, and while the problem is
valid it can be bound again. -/
theorem validity_of_changes (B : Backend α) :
    (∀ (p : Problem α) (change : RowChange α), p.validate = .ok () →
      (change.call p).result = .ok () →
      ((change.call p).state.validate = .ok () ↔
        ¬ (p.ranges = none ∧ NewRow.Bare change.appended))) ∧
    (∀ (b : Binding B) (c : Command α), b.Reachable → b.problem.validate = .ok () →
      ((c.call b).state.problem.validate = .ok () ↔
        ¬ ((c.call b).result.isOk = true ∧ b.problem.ranges = none ∧
          NewRow.Bare c.appended))) ∧
    (∀ (b : Binding B) (memory : B.Memory), b.Reachable →
      (b.problem.validate = .ok () ↔
        ∃ b' : Binding B, (bind B memory b.problem ()).result = .ok b')) := by
  refine ⟨?_, ?_, ?_⟩
  · intro p change hp hok
    have hvalid := Problem.validate_eq_ok.1 hp
    obtain ⟨es, hcall⟩ | ⟨e, hcall⟩ := change.call_cases hvalid.1.toColumnsFit
    · rw [hcall]
      exact change.validate_effect hp
    · rw [hcall] at hok
      cases hok
  · intro b c hb hv
    have hranges := hb.validate_iff.1 hv
    rw [(hb.call c).validate_iff, (c.step hb.aligned).rangesGiven hranges]
    cases (c.call b).result.isOk <;> simp [NewRow.Bare]
  · intro b memory hb
    constructor
    · intro hv
      exact ⟨_, congrArg Reply.result (bind_apply memory hv hb.aligned.kind hb.aligned.rows ())⟩
    · rintro ⟨b', hb'⟩
      exact (bind_eq_ok hb').1

/-- A range row with a range value, given to a problem that has no range values. -/
theorem ranged_row_keeps_valid :
    let change : RowChange Extended := .add ⟨[(0, 1)], .range, 0, some 1⟩
    let c : Command Extended := .addConstraint ⟨[(0, 1)], .range, 0, some 1⟩ .both
    (oneColumn.validate = .ok () ∧ (change.call oneColumn).result = .ok () ∧
      (change.call oneColumn).state.validate = .ok ()) ∧
    (bare.Reachable ∧ bare.problem.validate = .ok () ∧
      (c.call bare).state.problem.validate = .ok ()) ∧
    ∃ b' : Binding barren, (bind barren () bare.problem ()).result = .ok b' := by
  intro change c
  obtain ⟨hchange, hcall, hbind⟩ := validity_of_changes barren
  refine ⟨⟨rfl, rfl, ?_⟩, ⟨bare_reachable, rfl, ?_⟩, ?_⟩
  · exact (hchange oneColumn change rfl rfl).2 fun h => by
      simpa [change, RowChange.appended, NewRow.ofConstraint] using h.2.2
  · exact (hcall bare c bare_reachable rfl).2 fun h => by
      simpa [c, Command.appended, RowScope.rows, NewRow.ofConstraint] using h.2.2.2
  · exact (hbind bare () bare_reachable).1 rfl

/-- A range row without a range value is taken, and the problem is no longer valid. -/
theorem bare_range_row_spoils :
    let change : RowChange Extended := .bound 0 .range 1
    let c : Command Extended := .addBound 0 .range 1 .both
    oneColumn.validate = .ok () ∧ (change.call oneColumn).result = .ok () ∧
      (change.call oneColumn).state.validate = .error (.rangeMissing 0) ∧
      bare.Reachable ∧ (c.call bare).result.isOk = true ∧
      (c.call bare).state.problem.validate = .error (.rangeMissing 0) :=
  ⟨rfl, rfl, rfl, bare_reachable, rfl, rfl⟩

end LinProg.Binding
