import LinProg.Proofs.Matrix.Built
import Mathlib.Data.List.Sort

/-!
Rows by their columns. What a row holds is known by what it holds in each of its columns: a column
of a list of terms holds the sum of its values, one of a full row its value, and of a zero of either
sign nothing is kept.
-/

namespace LinProg

variable {α : Type} [Scalar α]

open Scalar

def Scalar.kept (a : α) : α :=
  if isZero a then 0 else a

theorem Scalar.kept_of_nonzero {a : α} (h : nonzero a = true) : kept a = a := by
  rw [kept, if_neg (by simpa [nonzero] using h)]

theorem Scalar.kept_of_isZero {a : α} (h : isZero a = true) : kept a = 0 :=
  if_pos h

theorem Scalar.kept_zero : kept (0 : α) = 0 :=
  ite_self 0

theorem Scalar.kept_zero_add [LawfulSum α] (a : α) : kept (0 + a) = kept a := by
  cases h : isZero a with
  | true => rw [kept_of_isZero h, kept_of_isZero (LawfulSum.isZero_zero_add a h)]
  | false => rw [LawfulSum.zero_add a (by simp [nonzero, h])]

namespace SparseRow

theorem Canonical.mem_iff {row : SparseRow α} (h : row.Canonical) (t : Nat × α) :
    t ∈ row ↔ t.1 ∈ row.map Prod.fst ∧ row.get t.1 = t.2 := by
  induction row with
  | nil => simp
  | cons u row ih =>
    obtain ⟨⟨hlt, -⟩, hrow⟩ := canonical_cons.1 h
    rw [List.mem_cons, ih hrow, get_cons, List.map_cons, List.mem_cons]
    by_cases ht : t.1 = u.1
    · have hnone : t.1 ∉ row.map Prod.fst := by
        rw [ht, List.mem_map]
        rintro ⟨w, hw, hwu⟩
        exact Nat.ne_of_lt (hlt w hw) hwu.symm
      simp [ht ▸ hnone, ht, Prod.ext_iff, eq_comm]
    · simp [ht, Prod.ext_iff]

theorem Canonical.eq_of_mem_iff {row row' : SparseRow α} (h : row.Canonical) (h' : row'.Canonical)
    (hmem : ∀ t, t ∈ row ↔ t ∈ row') : row = row' := by
  refine List.Perm.eq_of_pairwise ?_ h.1 h'.1 ?_
  · intro t u _ _ htu hut
    exact absurd htu (Nat.lt_asymm hut)
  · exact (List.perm_ext_iff_of_nodup h.nodup.of_map h'.nodup.of_map).2 hmem

theorem Canonical.ext [LawfulScalar α] {row row' : SparseRow α} (h : row.Canonical)
    (h' : row'.Canonical) (hget : ∀ k, row.get k = row'.get k) : row = row' := by
  refine h.eq_of_mem_iff h' fun t => ?_
  rw [h.mem_iff, h'.mem_iff, ← nonzero_get_iff h, ← nonzero_get_iff h', hget]

def valuesAt (terms : List (Nat × α)) (k : Nat) : List α :=
  (terms.filter (·.1 == k)).map (·.2)

omit [Scalar α] in
theorem valuesAt_cons (t : Nat × α) (terms : List (Nat × α)) (k : Nat) :
    valuesAt (t :: terms) k = if t.1 = k then t.2 :: valuesAt terms k else valuesAt terms k := by
  by_cases h : t.1 = k <;> simp [valuesAt, h]

theorem get_eq_head (row : SparseRow α) (k : Nat) :
    row.get k = (valuesAt row k).head?.getD 0 := by
  induction row with
  | nil => rfl
  | cons t row ih =>
    rw [get_cons, valuesAt_cons, ih]
    by_cases h : t.1 = k
    · simp [h]
    · simp [h, Ne.symm h]

theorem get_gather {row : SparseRow α} (h : row.Pairwise (·.1 < ·.1)) (term : Nat × α) (k : Nat) :
    (row.gather term).get k = if k = term.1 then row.get k + term.2 else row.get k := by
  induction row with
  | nil => simp [gather, get_cons, get_nil]
  | cons t row ih =>
    obtain ⟨hlt, hrow⟩ := List.pairwise_cons.1 h
    rw [gather]
    split
    · rename_i ht
      rw [get_cons, ih hrow, get_cons]
      by_cases hk : k = t.1
      · simp [hk, Nat.ne_of_lt ht]
      · simp [hk]
    · split
      · rename_i ht
        rw [get_cons, get_cons, ht]
        by_cases hk : k = term.1 <;> simp [hk]
      · -- The column comes before all that are there, so it holds nothing yet.
        have hterm : term.1 < t.1 := by omega
        have hnone : get (t :: row) term.1 = 0 :=
          get_of_lt (List.forall_mem_cons.2 ⟨hterm, fun u hu => Nat.lt_trans hterm (hlt u hu)⟩)
        rw [get_cons]
        by_cases hk : k = term.1 <;> simp [hk, hnone]

theorem get_foldl_gather {row : SparseRow α} (h : row.Pairwise (·.1 < ·.1))
    (terms : List (Nat × α)) (k : Nat) :
    (terms.foldl gather row).get k = (valuesAt terms k).foldl (· + ·) (row.get k) := by
  induction terms generalizing row with
  | nil => rfl
  | cons t terms ih =>
    rw [List.foldl_cons, ih (pairwise_gather h t), get_gather h, valuesAt_cons]
    by_cases hk : k = t.1
    · simp [hk]
    · simp [hk, Ne.symm hk]

theorem get_filter_nonzero {row : SparseRow α} (h : row.Pairwise (·.1 < ·.1)) (k : Nat) :
    get (row.filter (nonzero ·.2)) k = kept (row.get k) := by
  induction row with
  | nil => exact kept_zero.symm
  | cons t row ih =>
    obtain ⟨hlt, hrow⟩ := List.pairwise_cons.1 h
    rw [get_cons]
    cases ht : nonzero t.2 with
    | true =>
      rw [List.filter_cons_of_pos (by simpa using ht), get_cons, ih hrow, apply_ite kept,
        kept_of_nonzero ht]
    | false =>
      have hzero : kept t.2 = 0 := kept_of_isZero (by simpa [nonzero] using ht)
      rw [List.filter_cons_of_neg (by simp [ht]), ih hrow, apply_ite kept, hzero]
      by_cases hk : k = t.1
      · rw [if_pos hk, hk, get_of_lt hlt, kept_zero]
      · rw [if_neg hk]

theorem get_ofTerms (terms : List (Nat × α)) (k : Nat) :
    (ofTerms terms).get k = kept (sum (valuesAt terms k)) := by
  rw [ofTerms, get_filter_nonzero (pairwise_foldl_gather .nil terms), get_foldl_gather .nil]
  rfl

def fullTerms (values : List α) : List (Nat × α) :=
  (List.range values.length).zip values

omit [Scalar α] in
theorem mem_fullTerms {values : List α} {t : Nat × α} (h : t ∈ fullTerms values) :
    t.1 < values.length :=
  List.mem_range.1 (List.of_mem_zip h).1

theorem ofDense_eq (values : List α) :
    ofDense values = (fullTerms values).filter (nonzero ·.2) := by
  rw [ofDense, fullTerms, List.zipIdx_eq_zip_range', ← List.range_eq_range', ← List.zip_swap values]
  rfl

omit [Scalar α] in
theorem valuesAt_zip_range (values : List α) (n k : Nat) :
    valuesAt ((List.range' n values.length).zip values) k =
      if n ≤ k then values[k - n]?.toList else [] := by
  induction values generalizing n with
  | nil => simp [valuesAt]
  | cons v values ih =>
    rw [List.length_cons, List.range'_succ, List.zip_cons_cons, valuesAt_cons, ih]
    obtain hk | rfl | hk := Nat.lt_trichotomy k n
    · simp [Nat.not_le.2 hk, Nat.not_le.2 (Nat.lt_succ_of_lt hk), Nat.ne_of_gt hk]
    · simp
    · have hsub : k - n = (k - (n + 1)) + 1 := by omega
      simp [Nat.le_of_lt hk, Nat.succ_le_of_lt hk, Nat.ne_of_lt hk, hsub]

omit [Scalar α] in
theorem valuesAt_fullTerms (values : List α) (k : Nat) :
    valuesAt (fullTerms values) k = values[k]?.toList := by
  simpa [fullTerms, List.range_eq_range'] using valuesAt_zip_range values 0 k

theorem get_ofDense (values : List α) (k : Nat) :
    (ofDense values).get k = kept (values[k]?.getD 0) := by
  have hpairs : (fullTerms values).Pairwise (·.1 < ·.1) := by
    rw [fullTerms, ← List.pairwise_map, List.map_fst_zip (by simp)]
    exact List.pairwise_lt_range
  rw [ofDense_eq, get_filter_nonzero hpairs, get_eq_head, valuesAt_fullTerms, Option.head?_toList]

/-- The terms of a full row make the row that it is, in whatever order they are given. -/
theorem ofTerms_fullTerms [LawfulScalar α] [LawfulSum α] {terms : List (Nat × α)}
    {values : List α} (h : terms.Perm (fullTerms values)) : ofTerms terms = ofDense values := by
  have hbound : ∀ t ∈ terms, t.1 < values.length := fun t ht => mem_fullTerms (h.mem_iff.1 ht)
  refine (fits_ofTerms hbound).canonical.ext (fits_ofDense values).canonical fun k => ?_
  have hvalues : (valuesAt terms k).Perm values[k]?.toList := by
    rw [← valuesAt_fullTerms]
    exact (h.filter _).map _
  rw [get_ofTerms, get_ofDense]
  cases hk : values[k]? with
  | none =>
    rw [hk, Option.toList_none, List.perm_nil] at hvalues
    rw [hvalues]
    rfl
  | some v =>
    rw [hk, Option.toList_some, List.perm_singleton] at hvalues
    rw [hvalues]
    exact kept_zero_add v

theorem foldlM_place?_lookup {row : SparseRow α} (h : row.Pairwise (·.1 < ·.1)) {xs : List α}
    (hbound : ∀ t ∈ row, t.1 < xs.length) :
    row.foldlM (fun dense t => place? dense t.1 t.2) xs =
      some ((List.range xs.length).map fun k => (row.lookup k).getD (xs[k]?.getD 0)) := by
  induction row generalizing xs with
  | nil =>
    refine congrArg some (List.ext_getElem (by simp) fun k hk _ => ?_)
    simp [hk]
  | cons t row ih =>
    obtain ⟨hlt, hrow⟩ := List.pairwise_cons.1 h
    obtain ⟨ht, hbound⟩ := List.forall_mem_cons.1 hbound
    have hnone : row.lookup t.1 = none := by
      simpa using fun c v hv => Nat.ne_of_lt (hlt (c, v) hv)
    rw [List.foldlM_cons, place?_of_lt ht]
    refine (ih hrow (by simpa using hbound)).trans (congrArg some ?_)
    rw [List.length_set]
    refine List.map_congr_left fun k hk => ?_
    rw [List.lookup_cons]
    by_cases hkt : k = t.1
    · simp [hkt, hnone, ht]
    · simp [beq_false_of_ne hkt, Ne.symm hkt]

theorem Fits.toDense? {columns : Nat} {row : SparseRow α} (h : row.Fits columns) :
    row.toDense? columns = some ((List.range columns).map row.get) := by
  have hbound : ∀ t ∈ row, t.1 < (List.replicate columns (0 : α)).length := by
    simpa using h.bound
  rw [SparseRow.toDense?, foldlM_place?_lookup h.canonical.1 hbound, List.length_replicate]
  refine congrArg some (List.map_congr_left fun k hk => ?_)
  simp [get, List.mem_range.1 hk]

theorem Fits.get_eq_zero {columns : Nat} {row : SparseRow α} (h : row.Fits columns) {k : Nat}
    (hk : columns ≤ k) : row.get k = 0 := by
  have hnone : row.lookup k = none := by
    simpa using fun c v hv => Nat.ne_of_gt (Nat.lt_of_lt_of_le (h.bound (c, v) hv) hk)
  rw [get, hnone]
  rfl

theorem Canonical.kept_get {row : SparseRow α} (h : row.Canonical) (k : Nat) :
    kept (row.get k) = row.get k := by
  induction row with
  | nil => exact kept_zero
  | cons t row ih =>
    obtain ⟨⟨-, hz⟩, hrow⟩ := canonical_cons.1 h
    rw [get_cons, apply_ite kept, ih hrow, kept_of_nonzero (by simp [nonzero, hz])]

theorem Fits.ofDense_get [LawfulScalar α] {columns : Nat} {row : SparseRow α}
    (h : row.Fits columns) : ofDense ((List.range columns).map row.get) = row := by
  refine (fits_ofDense _).canonical.ext h.canonical fun k => ?_
  rw [get_ofDense]
  obtain hk | hk := Nat.lt_or_ge k columns
  · simp [hk, h.canonical.kept_get]
  · simp [Nat.not_lt.2 hk, kept_zero, h.get_eq_zero hk]

end SparseRow

end LinProg
