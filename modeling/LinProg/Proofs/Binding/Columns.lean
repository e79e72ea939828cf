import LinProg.Proofs.Binding.Aligned

namespace LinProg

variable {α : Type}

namespace Problem

def promoted (p : Problem α) (kinds : List ColumnKind) : Problem α :=
  (if kinds.any (·.isInteger) then p.withKind p.kind.mixed else p).withKinds kinds

theorem isQuadratic_promoted (p : Problem α) (kinds : List ColumnKind) :
    (p.promoted kinds).kind.isQuadratic = p.kind.isQuadratic := by
  rw [Problem.promoted]
  split
  · change p.kind.mixed.isQuadratic = p.kind.isQuadratic
    cases p.kind <;> rfl
  · rfl

variable [Scalar α] {p : Problem α} {rows : List (ModelRow α)}

theorem HasRows.withObjective (h : p.HasRows rows) (objective : List α) :
    (p.withObjective objective).HasRows rows :=
  ⟨h.terms, h.senses, h.rhs, h.ranges⟩

theorem HasRows.promoted (h : p.HasRows rows) (kinds : List ColumnKind) :
    (p.promoted kinds).HasRows rows := by
  rw [Problem.promoted]
  split <;> exact ⟨h.terms, h.senses, h.rhs, h.ranges⟩

theorem FrameValid.withObjective (h : p.FrameValid) {objective : List α}
    (ho : objective.length = p.columns) : (p.withObjective objective).FrameValid :=
  ⟨⟨h.matrix, ho, h.lower, h.upper, h.kinds⟩, h.bounds, h.kindsAllowed⟩

theorem FrameValid.promoted (h : p.FrameValid) {kinds : List ColumnKind}
    (hk : kinds.length = p.columns) : (p.promoted kinds).FrameValid := by
  rw [Problem.promoted]
  cases hi : kinds.any (·.isInteger) with
  | true =>
    refine ⟨⟨h.matrix, h.objective, h.lower, h.upper, hk⟩, h.bounds, fun hno => ?_⟩
    cases hkind : p.kind <;>
      simp [Problem.withKinds, withKind, hkind, ProblemKind.mixed,
        ProblemKind.allowsIntegers] at hno
  | false =>
    refine ⟨⟨h.matrix, h.objective, h.lower, h.upper, hk⟩, h.bounds, fun _ => ?_⟩
    have hnone : ∀ k ∈ kinds, k.isInteger = false := by simpa using hi
    exact hnone

end Problem

namespace Binding

variable {B : Backend α} {b : Binding B}

def withObjective (b : Binding B) (objective : List α) : Binding B :=
  { b with
    problem := b.problem.withObjective objective
    session := b.session.withModel (b.session.model.withObjective objective) }

def withKinds (b : Binding B) (kinds : List ColumnKind) : Binding B :=
  { b with
    problem := b.problem.promoted kinds
    session := b.session.withModel (b.session.model.withKinds kinds) }

theorem changeObjective_apply {objective : List α} (h : objective.length = b.problem.columns) :
    changeObjective objective b = ⟨.ok (), b.withObjective objective, []⟩ :=
  Call.bind_eq (checkLength_apply _ h) rfl

theorem changeObjective_refused {objective : List α} (h : objective.length ≠ b.problem.columns) :
    ∃ e, changeObjective objective b = ⟨.error (.error e), b, []⟩ :=
  ⟨_, Call.bind_of_error (checkLength_refused _ h) _⟩

theorem changeKinds_apply {kinds : List ColumnKind} (h : kinds.length = b.problem.columns) :
    changeKinds kinds b = ⟨.ok (), b.withKinds kinds, []⟩ := by
  refine Call.bind_eq (checkLength_apply _ h) ?_
  rw [withKinds, Problem.promoted]
  cases kinds.any (·.isInteger) <;> rfl

theorem changeKinds_refused {kinds : List ColumnKind} (h : kinds.length ≠ b.problem.columns) :
    ∃ e, changeKinds kinds b = ⟨.error (.error e), b, []⟩ :=
  ⟨_, Call.bind_of_error (checkLength_refused _ h) _⟩

variable [Scalar α]

theorem Aligned.withObjective (h : b.Aligned) {objective : List α}
    (ho : objective.length = b.problem.columns) : (b.withObjective objective).Aligned where
  frame := h.frame.withObjective ho
  kind := h.kind
  rows := h.rows.withObjective objective
  shared := h.shared
  model := congrArg (Model.withObjective · objective) h.model

theorem Aligned.withKinds (h : b.Aligned) {kinds : List ColumnKind}
    (hk : kinds.length = b.problem.columns) : (b.withKinds kinds).Aligned where
  frame := h.frame.promoted hk
  kind := (b.problem.isQuadratic_promoted kinds).trans h.kind
  rows := h.rows.promoted kinds
  shared := h.shared
  model := by
    have hm := congrArg (Model.withKinds · kinds) h.model
    rw [Binding.withKinds, Problem.promoted]
    split <;> exact hm

end Binding

end LinProg
