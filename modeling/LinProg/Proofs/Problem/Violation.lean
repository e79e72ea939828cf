import LinProg.Proofs.Problem.InRange
import LinProg.Proofs.Problem.Unambiguous
import LinProg.Proofs.Scalar.Interval

namespace LinProg

variable {α : Type} [Scalar α]

open Scalar

namespace Problem

/-- A number, and neither end of the interval is missed by more than the tolerance. -/
structure Clears (tolerance value : α) (interval : Interval α) : Prop where
  number : isNaN value = false
  low : lt tolerance (interval.1 - value) = false
  high : lt tolerance (value - interval.2) = false

variable [LawfulScalar α]

theorem lt_worse {tolerance : α} (ht : isFinite tolerance = true) (worst : α)
    (v : α × Interval α) : lt tolerance (worse worst v) = false ↔
      lt tolerance worst = false ∧ Clears tolerance v.1 v.2 := by
  rw [worse]
  cases hv : isNaN v.1 with
  | true =>
    rw [if_pos rfl, LawfulScalar.lt_posInf ht]
    exact iff_of_false (by decide) fun h => by simp [h.2.number] at hv
  | false =>
    rw [if_neg Bool.false_ne_true, lt_greatest, distance, lt_greatest, Bool.or_eq_false_iff,
      Bool.or_eq_false_iff]
    exact and_congr_right fun _ => ⟨fun ⟨hl, hh⟩ => ⟨hv, hl, hh⟩, fun h => ⟨h.low, h.high⟩⟩

theorem lt_foldl_worse {tolerance : α} (ht : isFinite tolerance = true)
    (vs : List (α × Interval α)) (worst : α) : lt tolerance (vs.foldl worse worst) = false ↔
      lt tolerance worst = false ∧ ∀ v ∈ vs, Clears tolerance v.1 v.2 := by
  induction vs generalizing worst with
  | nil => simp
  | cons v vs ih =>
    rw [List.foldl_cons, ih, lt_worse ht, List.forall_mem_cons, and_assoc]

theorem zero_le_worse {worst : α} (h : le 0 worst = true) (v : α × Interval α) :
    le 0 (worse worst v) = true := by
  have hworst : isNaN worst = false := isNaN_eq_false.2 (Extended.ne_nan_of_le h).2
  rw [worse, greatest, hworst, if_neg Bool.false_ne_true]
  split
  · rw [le, LawfulScalar.value_zero, LawfulScalar.value_posInf]
    rfl
  · split
    · rename_i hlt
      exact Extended.le_trans h (Bool.and_eq_true_iff.1 hlt).1
    · exact h

theorem zero_le_foldl_worse (vs : List (α × Interval α)) {worst : α} (h : le 0 worst = true) :
    le 0 (vs.foldl worse worst) = true := by
  induction vs generalizing worst with
  | nil => exact h
  | cons v vs ih => exact ih (zero_le_worse h v)

theorem isNaN_zero : isNaN (0 : α) = false := by
  rw [isNaN_eq_false, LawfulScalar.value_zero]
  exact Extended.noConfusion

theorem zero_le_violation (vs : List (α × Interval α)) : le 0 (vs.foldl worse 0) = true :=
  zero_le_foldl_worse vs (Extended.le_refl (isNaN_eq_false.1 isNaN_zero))

theorem isNaN_foldl_worse (vs : List (α × Interval α)) : isNaN (vs.foldl worse 0) = false :=
  isNaN_eq_false.2 (Extended.ne_nan_of_le (zero_le_violation vs)).2

omit [LawfulScalar α] in
theorem le_iff_not_lt {a b : α} (ha : isNaN a = false) (hb : isNaN b = false) :
    le a b = true ↔ lt b a = false := by
  rw [le, lt, Extended.lt_eq_not_le (isNaN_eq_false.1 hb) (isNaN_eq_false.1 ha),
    Bool.not_eq_false']

theorem foldl_worse_le {tolerance : α} (ht : isFinite tolerance = true)
    (vs : List (α × Interval α)) : le (vs.foldl worse 0) tolerance = true ↔
      le 0 tolerance = true ∧ ∀ v ∈ vs, Clears tolerance v.1 v.2 := by
  have htolerance : isNaN tolerance = false := isNaN_of_isFinite ht
  rw [le_iff_not_lt (isNaN_foldl_worse vs) htolerance, lt_foldl_worse ht,
    ← le_iff_not_lt isNaN_zero htolerance]

theorem worse_posInf (v : α × Interval α) : worse posInf v = posInf := by
  have hnumber : isNaN (posInf : α) = false := by
    rw [isNaN_eq_false, LawfulScalar.value_posInf]
    exact Extended.noConfusion
  have htop (d : α) : lt posInf d = false := by
    rw [lt, LawfulScalar.value_posInf]
    cases value d <;> rfl
  rw [worse, greatest, hnumber, if_neg Bool.false_ne_true, htop, if_neg Bool.false_ne_true,
    ite_self]

theorem foldl_worse_of_isNaN {vs : List (α × Interval α)} {v : α × Interval α} (h : v ∈ vs)
    (hv : isNaN v.1 = true) (worst : α) : vs.foldl worse worst = posInf := by
  obtain ⟨before, rest, rfl⟩ := List.append_of_mem h
  have hworst (w : α) : worse w v = posInf := by rw [worse, if_pos hv]
  rw [List.foldl_append, List.foldl_cons, hworst]
  exact List.foldl_fixed' worse_posInf rest

variable {p : Problem α} {x : List α}

omit [Scalar α] [LawfulScalar α] in
theorem getElem?_boundValues {c : Nat} {v : α} {bounds : Interval α} :
    (p.boundValues x)[c]? = some (v, bounds) ↔
      x[c]? = some v ∧ p.lower[c]? = some bounds.1 ∧ p.upper[c]? = some bounds.2 := by
  rw [boundValues, List.getElem?_zip_eq_some, List.getElem?_zip_eq_some]

omit [LawfulScalar α] in
theorem getElem?_rowValues {rows : List (α × Interval α)} (h : p.rowValues? x = some rows)
    {i : Nat} {a : α} {interval : Interval α} : rows[i]? = some (a, interval) ↔
      ∃ row, p.matrix.row? i = some row ∧ row.activity? x = some a ∧
        p.rowInterval? i = some interval := by
  rw [getElem?_of_mapM h, List.getElem?_zipIdx, SparseMatrix.row?]
  simp only [Option.bind_map, Option.bind_eq_some_iff, Function.comp_def, Nat.zero_add,
    Option.bind_eq_bind, Option.pure_def, Option.some.injEq, Prod.mk.injEq]
  constructor
  · rintro ⟨row, hrow, b, hb, j, hj, rfl, rfl⟩
    exact ⟨row, hrow, hb, hj⟩
  · rintro ⟨row, hrow, ha, hi⟩
    exact ⟨row, hrow, a, ha, interval, hi, rfl, rfl⟩

omit [Scalar α] [LawfulScalar α] in
theorem forall_boundValues (hp : p.ColumnsFit) (hx : x.length = p.columns)
    {P : α × Interval α → Prop} : (∀ v ∈ p.boundValues x, P v) ↔
      ∀ c < p.columns, ∃ v l u, x[c]? = some v ∧ p.lower[c]? = some l ∧ p.upper[c]? = some u ∧
        P (v, l, u) := by
  have hlength : (p.boundValues x).length = p.columns := by
    simp [boundValues, hx, hp.lower, hp.upper]
  rw [forall_mem_iff_places, hlength]
  refine forall₂_congr fun c _ => ?_
  constructor
  · rintro ⟨⟨v, l, u⟩, hv, hP⟩
    obtain ⟨hv, hl, hu⟩ := getElem?_boundValues.1 hv
    exact ⟨v, l, u, hv, hl, hu, hP⟩
  · rintro ⟨v, l, u, hv, hl, hu, hP⟩
    exact ⟨(v, l, u), getElem?_boundValues.2 ⟨hv, hl, hu⟩, hP⟩

omit [LawfulScalar α] in
theorem forall_rowValues {rows : List (α × Interval α)} (h : p.rowValues? x = some rows)
    {P : α × Interval α → Prop} : (∀ v ∈ rows, P v) ↔
      ∀ i < p.numRows, ∃ row a interval, p.matrix.row? i = some row ∧ row.activity? x = some a ∧
        p.rowInterval? i = some interval ∧ P (a, interval) := by
  have hlength : rows.length = p.numRows := by
    rw [length_of_mapM h, List.length_zipIdx]
    rfl
  rw [forall_mem_iff_places, hlength]
  refine forall₂_congr fun i _ => ?_
  constructor
  · rintro ⟨⟨a, interval⟩, hv, hP⟩
    obtain ⟨row, hrow, ha, hi⟩ := (getElem?_rowValues h).1 hv
    exact ⟨row, a, interval, hrow, ha, hi, hP⟩
  · rintro ⟨row, a, interval, hrow, ha, hi, hP⟩
    exact ⟨(a, interval), (getElem?_rowValues h).2 ⟨row, hrow, ha, hi⟩, hP⟩

omit [LawfulScalar α] in
theorem WellFormed.maxViolation_apply (h : p.WellFormed) (hx : x.length = p.columns) :
    ∃ rows, p.rowValues? x = some rows ∧
      p.maxViolation x = .ok ((p.boundValues x ++ rows).foldl worse 0) := by
  have hrange := h.maxViolation_inRange x
  rw [maxViolation, if_pos hx] at hrange ⊢
  cases hrows : p.rowValues? x with
  | none => simp [hrows] at hrange
  | some rows => exact ⟨rows, rfl, rfl⟩

omit [LawfulScalar α] in
theorem maxViolation_refused (hx : x.length ≠ p.columns) :
    p.maxViolation x = .error (.error (.length .point p.columns x.length)) := by
  rw [maxViolation, if_neg hx]

end Problem

end LinProg
