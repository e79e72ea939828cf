import LinProg.Proofs.Binding.Enclosed
import LinProg.Proofs.Scalar.Lawful

namespace LinProg

open Scalar

variable {α : Type} [Scalar α]

namespace Extended

def IsInteger (a : Extended) : Prop :=
  ∃ n : Int, a = .fin n

def Meets (a : Extended) (i : Interval α) : Prop :=
  (value i.1).le a = true ∧ a.le (value i.2) = true

theorem le_antisymm {a b : Extended} (h : a.le b = true) (h' : b.le a = true) : a = b :=
  eq_of_same (by rw [same, h, h']; rfl)

theorem meets_point {a : Extended} {v : α} (hv : value v ≠ .nan) :
    a.Meets (v, v) ↔ a = value v := by
  constructor
  · rintro ⟨hle, hge⟩
    exact le_antisymm hge hle
  · rintro rfl
    exact ⟨Extended.le_refl hv, Extended.le_refl hv⟩

end Extended

namespace Scalar

variable {a b : α} {c : Extended}

theorem greatest_cases (ha : value a ≠ .nan) (hb : value b ≠ .nan) :
    greatest a b = b ∧ (value a).le (value b) = true ∨
      greatest a b = a ∧ (value b).le (value a) = true := by
  have hnan : isNaN a = false := isNaN_eq_false.2 ha
  rw [greatest, hnan, if_neg Bool.false_ne_true]
  split
  · rename_i hlt
    exact .inl ⟨rfl, (Bool.and_eq_true_iff.1 hlt).1⟩
  · rename_i hlt
    exact .inr ⟨rfl, Extended.le_of_not_lt hb ha hlt⟩

theorem least_cases (ha : value a ≠ .nan) (hb : value b ≠ .nan) :
    least a b = b ∧ (value b).le (value a) = true ∨
      least a b = a ∧ (value a).le (value b) = true := by
  have hnan : isNaN a = false := isNaN_eq_false.2 ha
  rw [least, hnan, if_neg Bool.false_ne_true]
  split
  · rename_i hlt
    exact .inl ⟨rfl, (Bool.and_eq_true_iff.1 hlt).1⟩
  · rename_i hlt
    exact .inr ⟨rfl, Extended.le_of_not_lt ha hb hlt⟩

theorem greatest_le_iff (ha : value a ≠ .nan) (hb : value b ≠ .nan) :
    (value (greatest a b)).le c = true ↔ (value a).le c = true ∧ (value b).le c = true := by
  obtain ⟨h, hle⟩ | ⟨h, hle⟩ := greatest_cases ha hb
  · rw [h]
    exact ⟨fun hc => ⟨Extended.le_trans hle hc, hc⟩, And.right⟩
  · rw [h]
    exact ⟨fun hc => ⟨hc, Extended.le_trans hle hc⟩, And.left⟩

theorem le_least_iff (ha : value a ≠ .nan) (hb : value b ≠ .nan) :
    c.le (value (least a b)) = true ↔ c.le (value a) = true ∧ c.le (value b) = true := by
  obtain ⟨h, hle⟩ | ⟨h, hle⟩ := least_cases ha hb
  · rw [h]
    exact ⟨fun hc => ⟨Extended.le_trans hc hle, hc⟩, And.right⟩
  · rw [h]
    exact ⟨fun hc => ⟨hc, Extended.le_trans hc hle⟩, And.left⟩

end Scalar

def ModelRow.exactActivity? (r : ModelRow α) (y : List Extended) : Option Extended :=
  SparseRow.activity? (r.terms.map fun t => (t.1, value t.2)) y

def ModelRow.HoldsAt (r : ModelRow α) (y : List Extended) : Prop :=
  ∃ a, r.exactActivity? y = some a ∧ a.Meets r.interval

namespace Model

variable {m : Model α} {x : List α} {y : List Extended}

structure ColumnsHoldAt (m : Model α) (y : List Extended) : Prop where
  length : y.length = m.numCols
  bounds : ∀ (k : Nat) (a : Extended), y[k]? = some a →
    ∃ bounds, m.columnBounds? k = some bounds ∧ a.Meets bounds
  integers : ∀ (k : Nat) (a : Extended) (kind : ColumnKind), y[k]? = some a →
    m.kinds[k]? = some kind → kind.isInteger = true → a.IsInteger

structure SatisfiedBy (m : Model α) (y : List Extended) : Prop extends m.ColumnsHoldAt y where
  rows : ∀ r ∈ m.rows, r.HoldsAt y

/-- What the kinds of the columns ask of a point, whatever bounds are stored for them. -/
def KindsHoldAt (m : Model α) (x : List α) : Prop :=
  ∀ (k : Nat) (v : α) (kind : ColumnKind), x[k]? = some v → m.kinds[k]? = some kind →
    (kind.isInteger = true → (value v).IsInteger) ∧
      (kind = .binary → (value v).Meets ((0, 1) : Interval α))

variable [LawfulScalar α]

theorem meets_kindBounds {kind : ColumnKind} {v : α} (hv : value v ≠ .nan) {a : Extended} :
    a.Meets (kindBounds v v kind) ↔
      a = value v ∧ (kind = .binary → (value v).Meets ((0, 1) : Interval α)) := by
  have hzero : value (0 : α) ≠ .nan := by simp [LawfulScalar.value_zero]
  have hone : value (1 : α) ≠ .nan := by simp [LawfulScalar.value_one]
  cases kind with
  | continuous | integer => simpa [kindBounds] using Extended.meets_point hv
  | binary =>
    rw [Extended.Meets, kindBounds, greatest_le_iff hv hzero, le_least_iff hv hone]
    constructor
    · rintro ⟨⟨hle, hlow⟩, hge, hhigh⟩
      obtain rfl := Extended.le_antisymm hge hle
      exact ⟨rfl, fun _ => ⟨hlow, hhigh⟩⟩
    · rintro ⟨rfl, hin⟩
      obtain ⟨hlow, hhigh⟩ := hin rfl
      exact ⟨⟨Extended.le_refl hv, hlow⟩, Extended.le_refl hv, hhigh⟩

theorem exists_bounds_pinned {k : Nat} {v : α} {kind : ColumnKind} {a : Extended}
    (hv : x[k]? = some v) (hkind : m.kinds[k]? = some kind) (hnumber : value v ≠ .nan) :
    (∃ bounds, (m.withBounds x x).columnBounds? k = some bounds ∧ a.Meets bounds) ↔
      a = value v ∧ (kind = .binary → (value v).Meets ((0, 1) : Interval α)) := by
  have hbounds : (m.withBounds x x).columnBounds? k = some (kindBounds v v kind) :=
    columnBounds?_eq (m := m.withBounds x x) hkind hv hv
  rw [hbounds, ← meets_kindBounds hnumber]
  simp

theorem getElem?_of_pinned {k : Nat} {v : α} {kind : ColumnKind}
    (h : (m.withBounds x x).ColumnsHoldAt y) (hx : x.length = m.numCols) (hv : x[k]? = some v)
    (hkind : m.kinds[k]? = some kind) (hnumber : value v ≠ .nan) :
    y[k]? = some (value v) ∧ (kind = .binary → (value v).Meets ((0, 1) : Interval α)) := by
  obtain ⟨hlength, hbounds, -⟩ := h
  have hk : k < y.length := by
    rw [hlength, ← show x.length = (m.withBounds x x).numCols from hx]
    exact (List.getElem?_eq_some_iff.1 hv).1
  have hy : y[k]? = some y[k] := List.getElem?_eq_getElem hk
  obtain ⟨ha, hin⟩ := (exists_bounds_pinned hv hkind hnumber).1 (hbounds k _ hy)
  exact ⟨hy.trans (congrArg some ha), hin⟩

omit [Scalar α] [LawfulScalar α] in
theorem exists_kind (hm : m.ColumnsFit) (hx : x.length = m.numCols) {k : Nat} {v : α}
    (hv : x[k]? = some v) : ∃ kind, m.kinds[k]? = some kind := by
  obtain ⟨kind, _, _, hkind, -⟩ := hm.exists_bounds (hx ▸ (List.getElem?_eq_some_iff.1 hv).1)
  exact ⟨kind, hkind⟩

theorem eq_of_pinned (hm : m.ColumnsFit) (hx : x.length = m.numCols)
    (hnumber : ∀ v ∈ x, value v ≠ .nan) (h : (m.withBounds x x).ColumnsHoldAt y) :
    y = x.map value := by
  have hlength : y.length = x.length := h.length.trans hx.symm
  refine List.ext_getElem? fun k => ?_
  cases hv : x[k]? with
  | some v =>
    obtain ⟨kind, hkind⟩ := exists_kind hm hx hv
    have hat := getElem?_of_pinned h hx hv hkind (hnumber v (List.mem_of_getElem? hv))
    rw [hat.1, List.getElem?_map, hv, Option.map_some]
  | none =>
    have hk := List.getElem?_eq_none_iff.1 hv
    rw [List.getElem?_map, hv, Option.map_none, List.getElem?_eq_none (by omega)]

theorem columnsHoldAt_pinned (hm : m.ColumnsFit) (hx : x.length = m.numCols)
    (hnumber : ∀ v ∈ x, value v ≠ .nan) :
    (m.withBounds x x).ColumnsHoldAt y ↔ y = x.map value ∧ m.KindsHoldAt x := by
  constructor
  · intro h
    refine ⟨eq_of_pinned hm hx hnumber h, fun k v kind hv hkind => ?_⟩
    have hat := getElem?_of_pinned h hx hv hkind (hnumber v (List.mem_of_getElem? hv))
    exact ⟨h.integers k _ kind hat.1 hkind, hat.2⟩
  · rintro ⟨rfl, hkinds⟩
    refine ⟨(List.length_map ..).trans hx, fun k a ha => ?_, fun k a kind ha hkind hint => ?_⟩
    all_goals
      rw [List.getElem?_map, Option.map_eq_some_iff] at ha
      obtain ⟨v, hv, rfl⟩ := ha
    · obtain ⟨kind, hkind⟩ := exists_kind hm hx hv
      exact (exists_bounds_pinned hv hkind (hnumber v (List.mem_of_getElem? hv))).2
        ⟨rfl, (hkinds k v kind hv hkind).2⟩
    · exact (hkinds k v kind hv hkind).1 hint

theorem satisfiedBy_pinned (hm : m.ColumnsFit) (hx : x.length = m.numCols)
    (hnumber : ∀ v ∈ x, value v ≠ .nan) : (m.withBounds x x).SatisfiedBy y ↔
      y = x.map value ∧ (∀ r ∈ m.rows, r.HoldsAt (x.map value)) ∧ m.KindsHoldAt x := by
  constructor
  · rintro ⟨hcolumns, hrows⟩
    obtain ⟨rfl, hkinds⟩ := (columnsHoldAt_pinned hm hx hnumber).1 hcolumns
    exact ⟨rfl, hrows, hkinds⟩
  · rintro ⟨rfl, hrows, hkinds⟩
    exact ⟨(columnsHoldAt_pinned hm hx hnumber).2 ⟨rfl, hkinds⟩, hrows⟩

end Model

namespace Binding

variable {B : Backend α} {b : Binding B} {x : List α}

theorem Aligned.number_of_encloses (h : b.Aligned) (hx : x.length = b.problem.columns)
    (hin : b.problem.Encloses x) : ∀ v ∈ x, value v ≠ .nan := by
  obtain ⟨ho, -⟩ | ⟨-, hout⟩ := h.firstOutside?_cases hx
  · exact fun v hv => isNaN_eq_false.1 (number_of_firstOutside? ho v hv)
  · exact absurd hin (h.frame.excludes_iff.1 hout)

/-- A point with a coordinate that is no number, or beyond a bound of its column, is not tried. For
any other point the engine is run just once, unless the session is closed, and the code that it ends
with is the answer. The model of this run is that of the session with all columns fixed to the
point. No other point satisfies it, and this one does if it is inside of the rows of the session and
of what the kinds of the columns ask for. -/
theorem isFeasible_tests_the_point [LawfulScalar α] (h : b.Reachable) (hx : x.length = b.numCols) :
    (b.problem.Excludes x → ∃ k, isFeasible x b = ⟨.ok false, b, [.outsideBounds b.name k]⟩) ∧
    (¬ b.problem.Excludes x →
      let m := b.session.model.withBounds x x
      let run := B.run m b.session.memory
      let r := isFeasible x b
      b.Unmoved r.state ∧
      (b.isClosed = true → r.result = .error (.error .closed) ∧ r.events.foldl noteRun [] = [] ∧
        r.state.session.memory = b.session.memory) ∧
      (b.isClosed = false → r.result = run.1.map (B.hasPoint ·.code) ∧
        r.events.foldl noteRun [] = [m] ∧ r.state.session.memory = run.2) ∧
      ∀ y, m.SatisfiedBy y ↔ y = x.map value ∧
        (∀ row ∈ b.session.model.rows, row.HoldsAt (x.map value)) ∧
        b.session.model.KindsHoldAt x) := by
  have ha := h.aligned
  refine ⟨isFeasible_of_excludes ha hx, fun hout => ?_⟩
  intro m run r
  have hin : b.problem.Encloses x := not_not.1 fun hno => hout (ha.frame.excludes_iff.2 hno)
  have htried := isFeasible_of_encloses ha hx hin
  refine ⟨isFeasible_unmoved ha x, fun hclosed => ?_, fun hopen => ?_, fun y => ?_⟩
  · have hfound : b.session.found m = .error (.error .closed) := if_pos hclosed
    simpa [hclosed, m, hfound, Except.map] using htried
  · have hopen' : ¬ b.session.closed = true := by simpa [isClosed] using hopen
    have hfound : b.session.found m = run.1 := if_neg hopen'
    simpa [hopen, m, hfound] using htried
  · exact Model.satisfiedBy_pinned ha.bounded.toColumnsFit (hx.trans ha.numCols.symm)
      (ha.number_of_encloses hx hin)

/-- A point that is tried and one that is no point of numbers. -/
theorem mixedRows_tests_the_point :
    let m := mixedRows.session.model.withBounds [1] [1]
    mixedRows.Reachable ∧ mixedRows.isClosed = false ∧
      (∃ k, isFeasible [.nan] mixedRows =
        ⟨.ok false, mixedRows, [.outsideBounds mixedRows.name k]⟩) ∧
      (isFeasible [1] mixedRows).result = .ok false ∧
      (isFeasible [1] mixedRows).events.foldl noteRun [] = [m] ∧ m.SatisfiedBy [1] := by
  intro m
  have hnan : mixedRows.problem.Excludes [.nan] :=
    ⟨0, .nan, .negInf, .posInf, rfl, rfl, rfl, .inl rfl⟩
  have hone : ¬ mixedRows.problem.Excludes [1] := fun hout =>
    mixedRows_reachable.aligned.frame.excludes_iff.1 hout
      (between_cons.2 ⟨⟨rfl, rfl⟩, between_nil⟩)
  have hrows : ∀ row ∈ mixedRows.session.model.rows, row.HoldsAt [1] := by
    change ∀ row ∈ [ModelRow.ofConstraint (.bound 0 .lessEq 1),
      .ofConstraint (.bound 0 .greaterEq 0)], ModelRow.HoldsAt row [1]
    rw [List.forall_mem_cons, List.forall_mem_singleton]
    exact ⟨⟨1, by decide +kernel, rfl, rfl⟩, ⟨1, by decide +kernel, rfl, rfl⟩⟩
  have hkinds : mixedRows.session.model.KindsHoldAt [1] := by
    intro k v kind hv hkind
    cases k with
    | zero =>
      obtain rfl := Option.some.inj hkind
      simp [ColumnKind.isInteger]
    | succ k => cases hv
  obtain ⟨hout, -⟩ := isFeasible_tests_the_point (x := [.nan]) mixedRows_reachable rfl
  obtain ⟨-, hin⟩ := isFeasible_tests_the_point (x := [1]) mixedRows_reachable rfl
  obtain ⟨-, -, hopen, hpoint⟩ := hin hone
  obtain ⟨hresult, hruns, -⟩ := hopen rfl
  exact ⟨mixedRows_reachable, rfl, hout hnan, hresult.trans (by decide +kernel), hruns,
    (hpoint [1]).2 ⟨rfl, hrows, hkinds⟩⟩

end Binding

end LinProg
