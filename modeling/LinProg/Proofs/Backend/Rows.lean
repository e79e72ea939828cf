import LinProg.Backend.Embedded
import LinProg.Backend.Ranged
import LinProg.Backend.Script
import LinProg.Proofs.Place
import LinProg.Proofs.Scalar.Interval
import LinProg.Proofs.Scalar.Binary
import LinProg.Proofs.Session
import Mathlib.Data.List.Forall2

namespace LinProg

def Comparison.Holds {α : Type} [Scalar α] (c : Comparison) (activity : Rat) (rhs : α) : Prop :=
  match c with
  | .equal => (Scalar.value rhs).same (.fin activity) = true
  | .atLeast => (Scalar.value rhs).le (.fin activity) = true
  | .atMost => (Extended.fin activity).le (Scalar.value rhs) = true

def Interval.IsProper {α : Type} [Scalar α] (i : Interval α) : Prop :=
  Scalar.isNaN i.1 = false ∧ Scalar.isNaN i.2 = false

instance {α : Type} [Scalar α] (i : Interval α) : Decidable (Interval.IsProper i) :=
  inferInstanceAs (Decidable (_ ∧ _))

variable {α : Type} [Scalar α]

open Scalar

theorem Interval.isProper_iff {i : Interval α} :
    Interval.IsProper i ↔ value i.1 ≠ .nan ∧ value i.2 ≠ .nan :=
  and_congr isNaN_eq_false isNaN_eq_false

section Split

variable [LawfulScalar α] {i : Interval α}

theorem le_of_not_negInf_lt {a : α} (ha : isNaN a = false) {q : Rat} (h : lt negInf a = false) :
    (value a).le (.fin q) = true := by
  rw [lt, LawfulScalar.value_negInf, ← Bool.not_eq_true] at h
  exact Extended.le_trans (Extended.le_of_not_lt (isNaN_eq_false.1 ha) (by simp) h) rfl

theorem le_of_not_lt_posInf {b : α} (hb : isNaN b = false) {q : Rat} (h : lt b posInf = false) :
    (Extended.fin q).le (value b) = true := by
  rw [lt, LawfulScalar.value_posInf, ← Bool.not_eq_true] at h
  have hq : (Extended.fin q).le .posInf = true := rfl
  exact Extended.le_trans hq (Extended.le_of_not_lt (by simp) (isNaN_eq_false.1 hb) h)

/-- The comparisons of an interval hold together exactly in the interval, wherever its ends are. -/
theorem forall_ofInterval (hi : Interval.IsProper i) (q : Rat) :
    (∀ c ∈ Comparison.ofInterval i, c.1.Holds q c.2) ↔ Interval.Contains i q := by
  rw [Comparison.ofInterval]
  cases hsame : same i.1 i.2 with
  | true =>
    have hends : value i.1 = value i.2 := Extended.eq_of_same hsame
    simp [Comparison.Holds, Interval.Contains, Extended.same, hends]
  | false =>
    cases hlower : lt negInf i.1 with
    | true =>
      cases hupper : lt i.2 posInf with
      | true => simp [Comparison.Holds, Interval.Contains]
      | false => simp [Comparison.Holds, Interval.Contains, le_of_not_lt_posInf hi.2 hupper]
    | false =>
      have hle := le_of_not_negInf_lt hi.1 (q := q) hlower
      cases hupper : lt i.2 posInf with
      | true => simp [Comparison.Holds, Interval.Contains, hle]
      | false => simp [Interval.Contains, hle, le_of_not_lt_posInf hi.2 hupper]

end Split

def Inequality.Holds (c : Inequality α) (activity : Rat) : Prop :=
  c.comparison.Holds activity c.rhs

def Written.Row.Holds (r : Written.Row α) (activity : Rat) : Prop :=
  r.comparison.Holds activity r.rhs

theorem ModelRow.mem_inequalities {r : ModelRow α} {c : Inequality α} : c ∈ r.inequalities ↔
    c.terms = r.terms ∧ (c.comparison, c.rhs) ∈ Comparison.ofInterval r.interval := by
  rw [inequalities, List.mem_map]
  constructor
  · rintro ⟨b, hb, rfl⟩
    exact ⟨rfl, hb⟩
  · rintro ⟨hterms, hc⟩
    exact ⟨(c.comparison, c.rhs), hc, by rw [← hterms]⟩

theorem ModelRow.forall_inequalities [LawfulScalar α] {r : ModelRow α}
    (hr : Interval.IsProper r.interval) (q : Rat) :
    (∀ c ∈ r.inequalities, c.Holds q) ↔ Interval.Contains r.interval q := by
  rw [← forall_ofInterval hr, inequalities, List.forall_mem_map]
  rfl

namespace Model

variable {m : Model α}

def ProperRows (m : Model α) : Prop :=
  ∀ r ∈ m.rows, Interval.IsProper r.interval

instance (m : Model α) : Decidable m.ProperRows :=
  inferInstanceAs (Decidable (∀ _ ∈ _, _))

def MetBy (m : Model α) (activity : Nat → Rat) : Prop :=
  ∀ i r, m.rows[i]? = some r → Interval.Contains r.interval (activity i)

/-- Rows without terms are 0. -/
def EmptyAtZero (m : Model α) (activity : Nat → Rat) : Prop :=
  ∀ i r, m.rows[i]? = some r → r.terms = [] → activity i = 0

def comparisons (m : Model α) : List (Nat × Inequality α) :=
  m.rows.zipIdx.flatMap fun (r, i) => r.inequalities.map (i, ·)

theorem mem_comparisons {i : Nat} {c : Inequality α} :
    (i, c) ∈ m.comparisons ↔ ∃ r, m.rows[i]? = some r ∧ c ∈ r.inequalities := by
  simp only [comparisons, List.mem_flatMap, List.mem_map, Prod.mk.injEq]
  constructor
  · rintro ⟨⟨r, i⟩, hr, c, hc, rfl, rfl⟩
    exact ⟨r, List.mem_zipIdx_iff_getElem?.1 hr, hc⟩
  · rintro ⟨r, hr, hc⟩
    exact ⟨(r, i), List.mem_zipIdx_iff_getElem?.2 hr, c, hc, rfl, rfl⟩

theorem terms_of_mem_comparisons {i : Nat} {c : Inequality α} (h : (i, c) ∈ m.comparisons) :
    ∃ r, m.rows[i]? = some r ∧ c.terms = r.terms := by
  obtain ⟨r, hr, hc⟩ := mem_comparisons.1 h
  exact ⟨r, hr, (ModelRow.mem_inequalities.1 hc).1⟩

theorem forall_comparisons [LawfulScalar α] (hm : m.ProperRows) (activity : Nat → Rat) :
    (∀ t ∈ m.comparisons, t.2.Holds (activity t.1)) ↔ m.MetBy activity := by
  constructor
  · intro h i r hr
    rw [← ModelRow.forall_inequalities (hm r (List.mem_of_getElem? hr))]
    exact fun c hc => h (i, c) (mem_comparisons.2 ⟨r, hr, hc⟩)
  · rintro h ⟨i, c⟩ ht
    obtain ⟨r, hr, hc⟩ := mem_comparisons.1 ht
    exact (ModelRow.forall_inequalities (hm r (List.mem_of_getElem? hr)) _).2 (h i r hr) c hc

theorem map_comparisons {γ : Type} (f : Inequality α → γ) :
    m.comparisons.map (fun t => f t.2) = m.rows.flatMap fun r => r.inequalities.map f := by
  rw [comparisons, List.map_flatMap]
  calc m.rows.zipIdx.flatMap (fun t => (t.1.inequalities.map (t.2, ·)).map fun t => f t.2)
      = m.rows.zipIdx.flatMap fun t => t.1.inequalities.map f := by simp [Function.comp_def]
    _ = (m.rows.zipIdx.map (·.1)).flatMap fun r => r.inequalities.map f := by
        rw [List.flatMap_map]
    _ = m.rows.flatMap fun r => r.inequalities.map f := by rw [List.zipIdx_map_fst]

def weighted (m : Model α) : List (Nat × Inequality α) :=
  m.comparisons.filter fun t => !t.2.terms.isEmpty

theorem map_weighted : m.weighted.map (·.2) =
    m.rows.flatMap fun r => if r.terms.isEmpty then [] else r.inequalities := by
  have hall : m.comparisons.map (·.2) = m.rows.flatMap fun r => r.inequalities := by
    simpa using m.map_comparisons id
  have hrow (r : ModelRow α) : r.inequalities.filter (fun c => !c.terms.isEmpty) =
      if r.terms.isEmpty then [] else r.inequalities := by
    have hterms : ∀ c ∈ r.inequalities, c.terms = r.terms := fun c hc =>
      (ModelRow.mem_inequalities.1 hc).1
    cases he : r.terms.isEmpty with
    | true => simpa using fun c hc => by simpa [hterms c hc] using he
    | false => simpa using fun c hc => by simpa [hterms c hc] using he
  calc m.weighted.map (·.2)
      = (m.comparisons.map (·.2)).filter fun c => !c.terms.isEmpty := by
        rw [weighted, List.filter_map]
        rfl
    _ = m.rows.flatMap fun r => r.inequalities.filter fun c => !c.terms.isEmpty := by
        rw [hall, List.filter_flatMap]
    _ = m.rows.flatMap fun r => if r.terms.isEmpty then [] else r.inequalities := by
        simp only [hrow]

/-- What rows without terms ask for does not depend on the point. -/
theorem forall_weighted [LawfulScalar α] (hm : m.ProperRows) {activity : Nat → Rat}
    (h0 : m.EmptyAtZero activity)
    (hempty : ∀ r ∈ m.rows, r.terms = [] → Interval.Contains r.interval 0) :
    (∀ t ∈ m.weighted, t.2.Holds (activity t.1)) ↔ m.MetBy activity := by
  rw [← forall_comparisons hm]
  constructor
  · rintro h ⟨i, c⟩ ht
    obtain ⟨r, hr, hc⟩ := mem_comparisons.1 ht
    have hmem := List.mem_of_getElem? hr
    by_cases hterms : r.terms = []
    · have hzero : Interval.Contains r.interval (activity i) := by
        rw [h0 i r hr hterms]
        exact hempty r hmem hterms
      exact (ModelRow.forall_inequalities (hm r hmem) _).2 hzero c hc
    · have hweighted : c.terms.isEmpty = false := by
        simpa [(ModelRow.mem_inequalities.1 hc).1] using hterms
      exact h (i, c) (List.mem_filter.2 ⟨ht, by simp [hweighted]⟩)
  · exact fun h t ht => h t (List.mem_filter.1 ht).1

end Model

namespace Embedded

variable {m : Model α}

theorem isBroken_iff [LawfulScalar α] {r : ModelRow α} (hr : Interval.IsProper r.interval) :
    isBroken r = true ↔ r.terms = [] ∧ ¬ Interval.Contains r.interval 0 := by
  obtain ⟨hlower, hupper⟩ := Interval.isProper_iff.1 hr
  simp only [isBroken, lt, LawfulScalar.value_zero, Extended.lt_eq_not_le, ne_eq, hlower, hupper,
    reduceCtorEq, not_false_eq_true, Interval.Contains, Bool.and_eq_true, List.isEmpty_iff,
    Bool.or_eq_true, Bool.not_eq_true', not_and_or, Bool.not_eq_true]

theorem run_eq_infeasible_iff :
    (∀ engine, run engine m = .ok (.withoutValues .infeasible)) ↔ ∃ r ∈ m.rows, isBroken r := by
  rw [← List.any_eq_true]
  constructor
  · intro h
    by_contra hbroken
    have hrun := h fun _ => .unbounded
    rw [run, if_neg hbroken] at hrun
    cases hinput : input? m <;> simp [hinput, outcome, Outcome.withoutValues] at hrun
  · intro hbroken engine
    rw [run, if_pos hbroken]

theorem run_of_input {e : Input α} (he : input? m = some e)
    (h : ¬ ∃ r ∈ m.rows, isBroken r = true) (engine : Input α → Answer α) :
    run engine m = .ok (outcome m (engine e)) := by
  rw [← List.any_eq_true] at h
  rw [run, if_neg h, he]

theorem of_input {e : Input α} (he : input? m = some e) :
    (m.objective.zipIdx.mapM fun (cost, column) => columnAt? m cost column) = some e.columns ∧
      ∃ rows, m.rows.mapM (inequalities? m.numCols) = some rows ∧
        e.inequalities = rows.flatten := by
  simp only [input?, Option.bind_eq_bind, Option.bind_eq_some_iff, Option.pure_def,
    Option.some.injEq] at he
  obtain ⟨columns, hcolumns, rows, hrows, rfl⟩ := he
  exact ⟨hcolumns, rows, hrows, rfl⟩

theorem inequalities_of_input {e : Input α} (he : input? m = some e) :
    e.inequalities = m.weighted.map (·.2) := by
  obtain ⟨-, found, hfound, hflat⟩ := of_input he
  have hrows : found = m.rows.map fun r => if r.terms.isEmpty then [] else r.inequalities := by
    refine mapM_eq_map (fun r cs hcs => ?_) hfound
    rw [inequalities?] at hcs
    split at hcs
    · rename_i h
      simp [h, ← Option.some.inj hcs]
    · rename_i h
      rw [if_neg h]
      dsimp only at hcs
      split at hcs
      · exact (Option.some.inj hcs).symm
      · simp at hcs
  rw [Model.map_weighted, hflat, hrows, List.flatMap_def]

end Embedded

theorem Written.of_input [Numeral α] {m : Model α} {w : Input α} (hw : input? m = some w) :
    (List.range m.numCols).mapM (columnAt? m) = some w.columns ∧
      w.maximised = (m.direction == .maximise) ∧ w.objective = objectiveText m ∧
      w.rows = m.rows.flatMap fun r => r.inequalities.map row := by
  simp only [input?, Option.bind_eq_bind, Option.bind_eq_some_iff, Option.pure_def,
    Option.some.injEq] at hw
  obtain ⟨columns, hcolumns, rfl⟩ := hw
  exact ⟨hcolumns, rfl, rfl, rfl⟩

theorem Written.rows_of_input [Numeral α] {m : Model α} {w : Input α} (hw : input? m = some w) :
    w.rows = m.comparisons.map fun t => row t.2 := by
  obtain ⟨-, -, -, hrows⟩ := of_input hw
  rw [hrows, m.map_comparisons row]

theorem Written.sums_of_input [Numeral α] {m : Model α} {w : Input α} (hw : input? m = some w) :
    List.Forall₂ (fun c i => ∃ r, m.rows[i]? = some r ∧ c.sum = Text.sumText r.terms) w.rows
      (m.comparisons.map (·.1)) := by
  rw [rows_of_input hw, List.forall₂_map_left_iff, List.forall₂_map_right_iff, List.forall₂_same]
  rintro ⟨i, c⟩ hc
  obtain ⟨r, hr, hterms⟩ := Model.terms_of_mem_comparisons hc
  exact ⟨r, hr, congrArg Text.sumText hterms⟩

theorem Ranged.of_input {m : Model α} {g : Input α} (hg : input? m = some g) :
    (m.objective.zipIdx.mapM fun (cost, column) => columnAt? m cost column) = some g.columns ∧
      m.rows.mapM (row? m.numCols) = some g.rows := by
  simp only [input?, Option.bind_eq_bind, Option.bind_eq_some_iff, Option.pure_def,
    Option.some.injEq] at hg
  obtain ⟨columns, hcolumns, rows, hrows, rfl⟩ := hg
  exact ⟨hcolumns, hrows⟩

theorem Ranged.rows_of_input {m : Model α} {g : Input α} (hg : input? m = some g) :
    g.rows = m.rows.map fun r => ⟨r.interval, r.terms⟩ := by
  refine mapM_eq_map (fun r row hrow => ?_) (of_input hg).2
  rw [row?] at hrow
  split at hrow
  · exact (Option.some.inj hrow).symm
  · simp at hrow

namespace Model

variable {m : Model α}

structure WellFormed (m : Model α) : Prop extends m.ColumnsFit where
  terms : ∀ r ∈ m.rows, ∀ t ∈ r.terms, t.1 < m.numCols

theorem ColumnsFit.exists_columnBounds (h : m.ColumnsFit) {k : Nat} (hk : k < m.numCols) :
    ∃ kind bounds, m.kinds[k]? = some kind ∧ m.columnBounds? k = some bounds := by
  obtain ⟨kind, l, u, hkind, hl, hu⟩ := h.exists_bounds hk
  exact ⟨kind, _, hkind, columnBounds?_eq hkind hl hu⟩

/-- A pass over the columns that asks for no more than bounds and kinds. -/
theorem ColumnsFit.isSome_mapM_columns (h : m.ColumnsFit) {γ : Type} {f : α → Nat → Option γ}
    (hf : ∀ cost k kind bounds, m.kinds[k]? = some kind → m.columnBounds? k = some bounds →
      (f cost k).isSome) : (m.objective.zipIdx.mapM fun (cost, k) => f cost k).isSome := by
  apply isSome_mapM.2
  intro t ht
  have hk : t.2 < m.numCols := by
    have hlt := List.snd_lt_of_mem_zipIdx ht
    simpa [numCols] using hlt
  obtain ⟨kind, bounds, hkind, hbounds⟩ := h.exists_columnBounds hk
  exact hf t.1 t.2 kind bounds hkind hbounds

omit [Scalar α] in
theorem WellFormed.isSome_mapM_rows (h : m.WellFormed) {γ : Type} {f : ModelRow α → Option γ}
    (hf : ∀ r, (r.terms.all fun t => decide (t.1 < m.numCols)) = true → (f r).isSome) :
    (m.rows.mapM f).isSome := by
  apply isSome_mapM.2
  intro r hr
  exact hf r (by simpa using h.terms r hr)

end Model

theorem Written.isSome_input [Numeral α] {m : Model α} (h : m.ColumnsFit) :
    (input? m).isSome := by
  have hcolumns : ((List.range m.numCols).mapM (columnAt? m)).isSome := by
    apply isSome_mapM.2
    intro k hk
    obtain ⟨kind, bounds, hkind, hbounds⟩ := h.exists_columnBounds (List.mem_range.1 hk)
    simp [columnAt?, hkind, hbounds]
  obtain ⟨columns, hcolumns⟩ := Option.isSome_iff_exists.1 hcolumns
  simp [input?, hcolumns]

theorem Embedded.isSome_input {m : Model α} (h : m.WellFormed) : (input? m).isSome := by
  have hcolumns := h.isSome_mapM_columns (f := columnAt? m) fun cost k kind bounds hkind hbounds =>
    by simp [columnAt?, hkind, hbounds]
  have hrows : (m.rows.mapM (inequalities? m.numCols)).isSome := by
    refine h.isSome_mapM_rows fun r hterms => ?_
    rw [inequalities?]
    split
    · rfl
    · simp [hterms]
  obtain ⟨columns, hcolumns⟩ := Option.isSome_iff_exists.1 hcolumns
  obtain ⟨rows, hrows⟩ := Option.isSome_iff_exists.1 hrows
  simp [input?, hcolumns, hrows]

theorem Ranged.isSome_input {m : Model α} (h : m.WellFormed) : (input? m).isSome := by
  have hcolumns := h.isSome_mapM_columns (f := columnAt? m) fun cost k kind bounds hkind hbounds =>
    by simp [columnAt?, hkind, hbounds]
  have hrows : (m.rows.mapM (row? m.numCols)).isSome :=
    h.isSome_mapM_rows fun r hterms => by simp [row?, hterms]
  obtain ⟨columns, hcolumns⟩ := Option.isSome_iff_exists.1 hcolumns
  obtain ⟨rows, hrows⟩ := Option.isSome_iff_exists.1 hrows
  simp [input?, hcolumns, hrows]

/-- A range that goes downwards, a row without terms and an equation. -/
def threeRows : Model Float where
  direction := .maximise
  objective := [1, 1]
  lower := [0, 0]
  upper := [5, 5]
  kinds := [.continuous, .integer]
  rows := [⟨[(0, 1), (1, 1)], .range, 3, -2⟩, ⟨[], .lessEq, 1, 0⟩, ⟨[(0, 1)], .equal, 2, 0⟩]

theorem threeRows_wellFormed : threeRows.WellFormed where
  lower := by simp [threeRows, Model.numCols]
  upper := by simp [threeRows, Model.numCols]
  kinds := by simp [threeRows, Model.numCols]
  terms := by
    have hterms : ∀ r ∈ threeRows.rows, r.terms.all fun t => t.1 < 2 := by decide +kernel
    simpa [threeRows, Model.numCols] using hterms

end LinProg
