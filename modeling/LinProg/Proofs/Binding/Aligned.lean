import LinProg.Proofs.Chosen
import LinProg.Proofs.Problem.Valid
import LinProg.Proofs.Session

/-!
The two sides of a binding. They are aligned when the rows of the problem are those of the
session's rows that are marked as shared, and the session has everything else from the problem.
-/

namespace LinProg.Binding

variable {α : Type} {B : Backend α}

/-- A later state of a binding of which no side was touched. -/
structure Unmoved (b b' : Binding B) : Prop where
  name : b'.name = b.name
  problem : b'.problem = b.problem
  shared : b'.shared = b.shared
  session : b.session.Unmoved b'.session

theorem Unmoved.refl (b : Binding B) : b.Unmoved b := ⟨rfl, rfl, rfl, .refl _⟩

theorem Unmoved.of_session (b : Binding B) {s : Session B} (h : b.session.Unmoved s) :
    b.Unmoved { b with session := s } :=
  ⟨rfl, rfl, rfl, h⟩

theorem onProblem_apply {β : Type} {c : ProblemCall α β} {b : Binding B} {x : β} {p : Problem α}
    {es : List (Event α)} (h : c b.problem = ⟨.ok x, p, es⟩) :
    (onProblem c : BindingCall B β) b = ⟨.ok x, { b with problem := p }, es⟩ := by
  simp [onProblem, Call.on_apply, h]

theorem onSession_apply {β : Type} {c : SessionCall B β} {b : Binding B}
    {r : Except (Failure (SolverError α)) β} {s : Session B} {es : List (Event α)}
    (h : c b.session = ⟨r, s, es⟩) :
    onSession c b = ⟨r, { b with session := s }, es⟩ := by
  cases r with
  | ok x => simp [onSession, Call.on_apply, h]
  | error f => cases f <;> simp [onSession, Call.on_apply, h, Failure.map]

theorem onSession_unmoved {β : Type} {c : SessionCall B β} {b : Binding B}
    (h : b.session.Unmoved (c b.session).state) : b.Unmoved (onSession c b).state :=
  .of_session b h

theorem checkLength_apply (part : Part) {b : Binding B} {n : Nat} (h : n = b.problem.columns) :
    checkLength part n b = ⟨.ok (), b, []⟩ := by
  simp [checkLength, numCols, h]

theorem checkLength_refused (part : Part) {b : Binding B} {n : Nat}
    (h : n ≠ b.problem.columns) : checkLength part n b =
      ⟨.error (.error (.problem (.length part b.problem.columns n))), b, []⟩ := by
  have hb : (n == b.problem.columns) = false := by simpa using h
  simp [checkLength, numCols, hb]

def withClosed (b : Binding B) : Binding B :=
  { b with session := { b.session with closed := true, last := none } }

theorem close_apply {b : Binding B} (h : b.session.closed = false) :
    close b = ⟨.ok (), b.withClosed, [.closed b.name]⟩ := by
  have hopen : ¬ b.isClosed = true := by simp [isClosed, h]
  rw [close, Call.state_bind, if_neg hopen]
  rfl

theorem close_again {b : Binding B} (h : b.session.closed = true) :
    close b = ⟨.ok (), b, []⟩ := by
  have hclosed : b.isClosed = true := h
  rw [close, Call.state_bind, if_pos hclosed]
  rfl

theorem close_ok (b : Binding B) : ∃ b' es, close b = ⟨.ok (), b', es⟩ := by
  cases h : b.session.closed with
  | true => exact ⟨_, _, close_again h⟩
  | false => exact ⟨_, _, close_apply h⟩

variable [Scalar α]

structure Aligned (b : Binding B) : Prop where
  frame : b.problem.FrameValid
  kind : b.problem.kind.isQuadratic = false
  rows : b.problem.HasRows (chosen b.shared b.session.model.rows)
  shared : b.shared.length = b.session.model.rows.length
  model : b.session.model = b.problem.modelWith b.session.model.rows

def withRows (b : Binding B) (p : Problem α) (rows : List (ModelRow α)) (shared : List Bool) :
    Binding B :=
  { b with problem := p, session := b.session.withModel (b.session.model.withRows rows), shared }

namespace Aligned

variable {b : Binding B}

theorem numRows (h : b.Aligned) : b.problem.numRows = b.shared.count true := by
  rw [h.rows.numRows, length_chosen h.shared]

theorem model? (h : b.Aligned) : b.problem.model? =
    some (b.session.model.withRows (chosen b.shared b.session.model.rows)) := by
  rw [h.rows.model?, h.model]
  rfl

theorem hasRows_of_shared (h : b.Aligned) (hall : ∀ isShared ∈ b.shared, isShared = true) :
    b.problem.HasRows b.session.model.rows := by
  have hflags : b.shared = List.replicate b.session.model.rows.length true :=
    List.eq_replicate_iff.2 ⟨h.shared, hall⟩
  have hrows := h.rows
  rwa [hflags, chosen_replicate] at hrows

theorem model?_of_shared (h : b.Aligned) (hall : ∀ isShared ∈ b.shared, isShared = true) :
    b.problem.model? = some b.session.model := by
  rw [(h.hasRows_of_shared hall).model?, ← h.model]

theorem lower_length (h : b.Aligned) : b.session.model.lower.length = b.problem.columns := by
  rw [h.model]
  exact h.frame.lower

theorem upper_length (h : b.Aligned) : b.session.model.upper.length = b.problem.columns := by
  rw [h.model]
  exact h.frame.upper

theorem withRows (h : b.Aligned) {p : Problem α} {rows : List (ModelRow α)} {shared : List Bool}
    (hframe : p.frame = b.problem.frame) (hrows : p.HasRows (chosen shared rows))
    (hshared : shared.length = rows.length) : (b.withRows p rows shared).Aligned where
  frame := h.frame.of_frame hframe
  kind := by
    change p.frame.kind.isQuadratic = false
    rw [hframe]
    exact h.kind
  rows := hrows
  shared := hshared
  model := by
    rw [Binding.withRows, Problem.modelWith_of_frame hframe]
    exact congrArg (Model.withRows · rows) h.model

theorem of_unmoved (h : b.Aligned) {b' : Binding B} (hb : b.Unmoved b') : b'.Aligned where
  frame := hb.problem ▸ h.frame
  kind := hb.problem ▸ h.kind
  rows := by
    rw [hb.problem, hb.shared, hb.session.model]
    exact h.rows
  shared := by
    rw [hb.shared, hb.session.model]
    exact h.shared
  model := by
    rw [hb.problem, hb.session.model]
    exact h.model

end Aligned

def loaded (B : Backend α) (memory : B.Memory) (p : Problem α) (rows : List (ModelRow α)) :
    Binding B where
  name := B.name
  problem := p
  session := ⟨p.modelWith rows, none, false, memory⟩
  shared := List.replicate p.numRows true

theorem loaded_aligned (memory : B.Memory) {p : Problem α} (hp : p.FrameValid)
    (hk : p.kind.isQuadratic = false) {rows : List (ModelRow α)} (hrows : p.HasRows rows) :
    (loaded B memory p rows).Aligned where
  frame := hp
  kind := hk
  rows := by
    have hc : chosen (List.replicate p.numRows true) rows = rows := by
      rw [hrows.numRows, chosen_replicate]
    exact hc.symm ▸ hrows
  shared := by simp [loaded, Problem.modelWith, hrows.numRows]
  model := rfl

theorem bind_apply {σ : Type} (memory : B.Memory) {p : Problem α} (hp : p.validate = .ok ())
    (hk : p.kind.isQuadratic = false) {rows : List (ModelRow α)} (hrows : p.HasRows rows)
    (s : σ) : bind B memory p s = ⟨.ok (loaded B memory p rows), s,
      [.bound p.kind p.numRows p.columns B.name]⟩ := by
  simp [bind, hp, Session.bind, hk, hrows.model?]
  rfl

theorem bind_eq_ok {σ : Type} {memory : B.Memory} {p : Problem α} {s : σ} {b : Binding B}
    (h : (bind B memory p s).result = .ok b) : p.validate = .ok () ∧
      p.kind.isQuadratic = false ∧ ∃ rows, p.HasRows rows ∧ b = loaded B memory p rows := by
  cases hv : p.validate with
  | error e => simp [bind, hv] at h
  | ok u =>
    cases hk : p.kind.isQuadratic with
    | true => simp [bind, hv, Session.bind, hk] at h
    | false =>
      obtain ⟨_, ⟨rows, hrows⟩, _⟩ := Problem.validate_eq_ok.1 hv
      rw [bind_apply memory hv hk hrows] at h
      exact ⟨rfl, rfl, rows, hrows, (Except.ok.inj h).symm⟩

theorem bind_aligned {σ : Type} {memory : B.Memory} {p : Problem α} {s : σ} {b : Binding B}
    (h : (bind B memory p s).result = .ok b) : b.Aligned := by
  obtain ⟨hv, hk, rows, hrows, rfl⟩ := bind_eq_ok h
  exact loaded_aligned memory (Problem.validate_eq_ok.1 hv).1 hk hrows

end LinProg.Binding
