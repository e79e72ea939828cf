import LinProg.Problem.Export
import LinProg.Proofs.Problem.Rows

namespace LinProg

theorem filterM_eq_some {β : Type} {f : β → Option Bool} {g : β → Bool} {xs : List β}
    (h : ∀ x ∈ xs, f x = some (g x)) : xs.filterM f = some (xs.filter g) := by
  have haux (acc : List β) : List.filterAuxM f xs acc = some ((xs.filter g).reverse ++ acc) := by
    induction xs generalizing acc with
    | nil => rfl
    | cons x xs ih =>
      obtain ⟨hx, hxs⟩ := List.forall_mem_cons.1 h
      cases hg : g x <;> simp [List.filterAuxM, hx, hg, ih hxs]
  simp [List.filterM, haux]

theorem isSome_filterM {β : Type} {f : β → Option Bool} {xs : List β} :
    (xs.filterM f).isSome ↔ ∀ x ∈ xs, (f x).isSome := by
  have haux (acc : List β) : (List.filterAuxM f xs acc).isSome ↔ ∀ x ∈ xs, (f x).isSome := by
    induction xs generalizing acc with
    | nil => simp [List.filterAuxM]
    | cons x xs ih =>
      rw [List.forall_mem_cons, List.filterAuxM]
      cases f x with
      | none => simp
      | some b => simpa using ih _
  rw [← haux []]
  cases h : List.filterAuxM f xs [] <;> simp [List.filterM, h]

variable {α : Type} [Scalar α]

namespace ModelRow

def exported (r : ModelRow α) : ExportRow α :=
  match r.sense with
  | .range => .between r.interval.1 (Problem.written r.terms) r.interval.2
  | sense => .compared (Problem.written r.terms) sense r.rhs

theorem exported_range {r : ModelRow α} (h : r.sense = .range) :
    r.exported = .between r.interval.1 (Problem.written r.terms) r.interval.2 := by
  rw [exported, h]

theorem exported_compared {r : ModelRow α} (h : r.sense ≠ .range) :
    r.exported = .compared (Problem.written r.terms) r.sense r.rhs := by
  rw [exported]
  split
  · rename_i hsense
    exact absurd hsense h
  · rfl

end ModelRow

namespace ExportRow

def sense : ExportRow α → Sense
  | .compared _ sense _ => sense
  | .between .. => .range

def terms : ExportRow α → List (Nat × α)
  | .compared terms _ _ => terms
  | .between _ terms _ => terms

@[simp] theorem sense_exported (r : ModelRow α) : r.exported.sense = r.sense := by
  by_cases h : r.sense = .range
  · rw [ModelRow.exported_range h, h]
    rfl
  · rw [ModelRow.exported_compared h]
    rfl

@[simp] theorem terms_exported (r : ModelRow α) : r.exported.terms = Problem.written r.terms := by
  by_cases h : r.sense = .range
  · rw [ModelRow.exported_range h]
    rfl
  · rw [ModelRow.exported_compared h]
    rfl

end ExportRow

namespace ModelRow

theorem sense_eq_of_exported {r r' : ModelRow α} (h : r.exported = r'.exported) :
    r.sense = r'.sense := by
  rw [← ExportRow.sense_exported, h, ExportRow.sense_exported]

theorem rhs_eq_of_exported {r r' : ModelRow α} (h : r.exported = r'.exported)
    (hs : r.sense ≠ .range) : r.rhs = r'.rhs := by
  have hs' : r'.sense ≠ .range := sense_eq_of_exported h ▸ hs
  rw [exported_compared hs, exported_compared hs'] at h
  exact (ExportRow.compared.inj h).2.2

theorem exported_eq {r r' : ModelRow α} (ht : r.terms = r'.terms) (hs : r.sense = r'.sense)
    (hrhs : r.sense ≠ .range → r.rhs = r'.rhs)
    (hinterval : r.sense = .range → r.interval = r'.interval) : r.exported = r'.exported := by
  by_cases h : r.sense = .range
  · rw [exported_range h, exported_range (hs ▸ h), ht, hinterval h]
  · rw [exported_compared h, exported_compared (hs ▸ h), ht, hs, hrhs h]

theorem interval_eq_of_exported {r r' : ModelRow α} (h : r.exported = r'.exported)
    (hs : r.sense = .range) : r.interval = r'.interval := by
  have hs' : r'.sense = .range := sense_eq_of_exported h ▸ hs
  rw [exported_range hs, exported_range hs'] at h
  obtain ⟨hlow, -, hhigh⟩ := ExportRow.between.inj h
  exact Prod.ext hlow hhigh

end ModelRow

namespace Problem

variable {p : Problem α}

def columnsOf (p : Problem α) (kind : ColumnKind) : List Nat :=
  (List.range p.columns).filter fun c => p.kinds[c]? == some kind

omit [Scalar α] in
theorem columnsOf?_eq (h : p.kinds.length = p.columns) (kind : ColumnKind) :
    p.columnsOf? kind = some (p.columnsOf kind) := by
  refine filterM_eq_some fun c hc => ?_
  have hlt : c < p.kinds.length := by
    rw [h]
    exact List.mem_range.1 hc
  simp [hlt]

def exportOf (p : Problem α) (rows : List (ModelRow α)) : Export α where
  kind := p.kind
  maximised := p.isMaximised
  objective := written (p.objective.zipIdx.map fun (v, c) => (c, v))
  rows := rows.map ModelRow.exported
  bounds := (p.lower.zip p.upper).map .ofInterval
  integers := p.columnsOf .integer
  binaries := p.columnsOf .binary

theorem export?_eq (h : p.ColumnsFit) {rows : List (ModelRow α)} (hrows : p.HasRows rows) :
    p.export? = some (p.exportOf rows) := by
  have hexported : (p.matrix.rows.zipIdx.mapM fun t => p.exportRow? t.1 t.2) =
      some (rows.map ModelRow.exported) := by
    refine mapM_zipIdx_eq_some 0 (by simp [← hrows.terms]) fun i terms row hterms hrow => ?_
    simp only [← hrows.terms, List.getElem?_map, Option.map_eq_some_iff] at hterms hrow
    obtain ⟨r, hr, rfl⟩ := hterms
    obtain ⟨r', hr', rfl⟩ := hrow
    obtain rfl : r = r' := by simpa [hr] using hr'
    have hs : p.senses[i]? = some r.sense := by simp [← hrows.senses, hr]
    have hb : p.rhs[i]? = some r.rhs := by simp [← hrows.rhs, hr]
    cases hsense : r.sense <;>
      simp [exportRow?, hs, hsense, hb, hrows.rowInterval? hr, ModelRow.exported]
  change (p.matrix.rows.zipIdx.mapM fun t => p.exportRow? t.1 t.2).bind _ = _
  rw [hexported, Option.bind_some, columnsOf?_eq h.kinds, columnsOf?_eq h.kinds]
  rfl

end Problem

end LinProg
