import LinProg.Matrix.Row

namespace LinProg.SparseRow

variable {α : Type} [Scalar α]

open Scalar

structure Fits (columns : Nat) (row : SparseRow α) : Prop where
  canonical : row.Canonical
  bound : ∀ t ∈ row, t.1 < columns

theorem canonical_nil : Canonical ([] : SparseRow α) := by simp [Canonical]

theorem canonical_cons {t : Nat × α} {row : SparseRow α} :
    Canonical (t :: row) ↔ ((∀ u ∈ row, t.1 < u.1) ∧ isZero t.2 = false) ∧ row.Canonical := by
  simp only [Canonical, List.pairwise_cons, List.forall_mem_cons]
  constructor
  · rintro ⟨⟨hlt, hrow⟩, hz, hzs⟩
    exact ⟨⟨hlt, hz⟩, hrow, hzs⟩
  · rintro ⟨⟨hlt, hz⟩, hrow, hzs⟩
    exact ⟨⟨hlt, hrow⟩, hz, hzs⟩

theorem fits_nil (columns : Nat) : Fits columns ([] : SparseRow α) :=
  ⟨canonical_nil, by simp⟩

theorem fits_cons {columns : Nat} {t : Nat × α} {row : SparseRow α} : Fits columns (t :: row) ↔
    ((∀ u ∈ row, t.1 < u.1) ∧ isZero t.2 = false) ∧ t.1 < columns ∧ row.Fits columns := by
  constructor
  · rintro ⟨hc, hb⟩
    obtain ⟨ht, hrow⟩ := canonical_cons.1 hc
    exact ⟨ht, hb t (by simp), hrow, fun u hu => hb u (by simp [hu])⟩
  · rintro ⟨ht, hlt, hrow⟩
    refine ⟨canonical_cons.2 ⟨ht, hrow.canonical⟩, ?_⟩
    simpa using ⟨hlt, fun a b => hrow.bound (a, b)⟩

theorem Fits.mono {columns columns' : Nat} {row : SparseRow α} (h : row.Fits columns)
    (hle : columns ≤ columns') : row.Fits columns' :=
  ⟨h.canonical, fun t ht => Nat.lt_of_lt_of_le (h.bound t ht) hle⟩

theorem mem_set {row : SparseRow α} {column : Nat} {value : α} {t : Nat × α}
    (h : t ∈ row.set column value) : t = (column, value) ∨ t ∈ row := by
  induction row with
  | nil =>
    rw [set] at h
    split at h <;> simp_all
  | cons u row ih =>
    rw [set] at h
    split at h
    · obtain rfl | h := List.mem_cons.1 h
      · simp
      · obtain h | h := ih h <;> simp [h]
    · split at h
      · split at h
        · exact .inr (List.mem_cons_of_mem u h)
        · obtain rfl | h := List.mem_cons.1 h
          · exact .inl rfl
          · exact .inr (List.mem_cons_of_mem u h)
      · split at h
        · exact .inr h
        · exact List.mem_cons.1 h

theorem Canonical.set {row : SparseRow α} (h : row.Canonical) (column : Nat) (value : α) :
    (row.set column value).Canonical := by
  induction row with
  | nil =>
    rw [SparseRow.set]
    split <;> simp_all [Canonical]
  | cons u row ih =>
    obtain ⟨⟨hlt, hz⟩, hrow⟩ := canonical_cons.1 h
    rw [SparseRow.set]
    split
    · rename_i hu
      refine canonical_cons.2 ⟨⟨?_, hz⟩, ih hrow⟩
      intro t ht
      obtain rfl | ht := mem_set ht
      · exact hu
      · exact hlt t ht
    · rename_i hu
      split
      · rename_i hc
        subst hc
        split
        · exact hrow
        · rename_i hv
          exact canonical_cons.2 ⟨⟨hlt, by simpa using hv⟩, hrow⟩
      · rename_i hc
        split
        · exact h
        · rename_i hv
          have hcu : column < u.1 := by omega
          refine canonical_cons.2 ⟨⟨?_, by simpa using hv⟩, h⟩
          simpa using ⟨hcu, fun a b ht => Nat.lt_trans hcu (hlt (a, b) ht)⟩

theorem Fits.set {columns : Nat} {row : SparseRow α} (h : row.Fits columns) {column : Nat}
    (hc : column < columns) (value : α) : (row.set column value).Fits columns := by
  refine ⟨h.canonical.set column value, ?_⟩
  intro t ht
  obtain rfl | ht := mem_set ht
  · exact hc
  · exact h.bound t ht

theorem set_of_lt {row : SparseRow α} {column : Nat} {value : α}
    (h : ∀ t ∈ row, t.1 < column) (hv : isZero value = false) :
    row.set column value = row ++ [(column, value)] := by
  induction row with
  | nil => simp [set, hv]
  | cons u row ih =>
    have hu : u.1 < column := h u (by simp)
    simp [set, hu, ih fun t ht => h t (by simp [ht])]

theorem foldl_set {row ts : SparseRow α} (h : Canonical (row ++ ts)) :
    ts.foldl (fun row t => row.set t.1 t.2) row = row ++ ts := by
  induction ts generalizing row with
  | nil => simp
  | cons t ts ih =>
    have hlt : ∀ u ∈ row, u.1 < t.1 := fun u hu =>
      (List.pairwise_append.1 h.1).2.2 u hu t (by simp)
    have hv : isZero t.2 = false := h.2 t (by simp)
    rw [List.foldl_cons, set_of_lt hlt hv, ih (by simpa using h)]
    simp

theorem get_nil (k : Nat) : get ([] : SparseRow α) k = 0 := rfl

theorem get_cons (t : Nat × α) (row : SparseRow α) (k : Nat) :
    get (t :: row) k = if k = t.1 then t.2 else row.get k := by
  rw [get, List.lookup_cons]
  by_cases hk : k = t.1
  · simp [hk]
  · rw [if_neg hk, beq_false_of_ne hk]
    rfl

theorem get_of_lt {row : SparseRow α} {k : Nat} (h : ∀ t ∈ row, k < t.1) : row.get k = 0 := by
  induction row with
  | nil => rfl
  | cons t row ih =>
    obtain ⟨ht, hrow⟩ := List.forall_mem_cons.1 h
    rw [get_cons, if_neg (Nat.ne_of_lt ht), ih hrow]

theorem get_set {row : SparseRow α} (h : row.Canonical) (column : Nat) (value : α) (k : Nat) :
    (row.set column value).get k =
      if k = column then if isZero value then 0 else value else row.get k := by
  induction row with
  | nil =>
    rw [set]
    split <;> simp [get_cons, get_nil]
  | cons t row ih =>
    obtain ⟨⟨hlt, -⟩, hrow⟩ := canonical_cons.1 h
    rw [set]
    split
    · rename_i htc
      rw [get_cons, ih hrow, get_cons]
      by_cases hk : k = t.1
      · simp [hk, Nat.ne_of_lt htc]
      · simp [hk]
    · split
      · rename_i hc
        subst hc
        have hnone : get row t.1 = 0 := get_of_lt hlt
        split
        · by_cases hk : k = t.1 <;> simp [get_cons, hk, hnone]
        · by_cases hk : k = t.1 <;> simp [get_cons, hk]
      · have hct : column < t.1 := by omega
        have hnone : get (t :: row) column = 0 :=
          get_of_lt (List.forall_mem_cons.2 ⟨hct, fun u hu => Nat.lt_trans hct (hlt u hu)⟩)
        split
        · by_cases hk : k = column <;> simp [hk, hnone]
        · rw [get_cons]

theorem mem_gather {row : SparseRow α} {term t : Nat × α} (h : t ∈ row.gather term) :
    t.1 = term.1 ∨ ∃ u ∈ row, t.1 = u.1 := by
  induction row with
  | nil => simp_all [gather]
  | cons u row ih =>
    rw [gather] at h
    split at h
    · obtain rfl | h := List.mem_cons.1 h
      · simp
      · obtain h | ⟨v, hv, h⟩ := ih h
        · exact .inl h
        · exact .inr ⟨v, by simp [hv], h⟩
    · split at h
      · obtain rfl | h := List.mem_cons.1 h
        · exact .inr ⟨u, by simp⟩
        · exact .inr ⟨t, by simp [h]⟩
      · obtain rfl | h := List.mem_cons.1 h
        · exact .inl rfl
        · exact .inr ⟨t, h, rfl⟩

theorem pairwise_gather {row : SparseRow α} (h : row.Pairwise (·.1 < ·.1)) (term : Nat × α) :
    (row.gather term).Pairwise (·.1 < ·.1) := by
  induction row with
  | nil => simp [gather]
  | cons u row ih =>
    obtain ⟨hlt, hrow⟩ := List.pairwise_cons.1 h
    rw [gather]
    split
    · rename_i hu
      refine List.pairwise_cons.2 ⟨?_, ih hrow⟩
      intro t ht
      obtain ht | ⟨v, hv, ht⟩ := mem_gather ht
      · rwa [ht]
      · rw [ht]
        exact hlt v hv
    · split
      · exact List.pairwise_cons.2 ⟨hlt, hrow⟩
      · have htu : term.1 < u.1 := by omega
        refine List.pairwise_cons.2 ⟨?_, h⟩
        simpa using ⟨htu, fun a b ht => Nat.lt_trans htu (hlt (a, b) ht)⟩

theorem pairwise_foldl_gather {row : SparseRow α} (h : row.Pairwise (·.1 < ·.1))
    (terms : List (Nat × α)) : (terms.foldl gather row).Pairwise (·.1 < ·.1) := by
  induction terms generalizing row with
  | nil => exact h
  | cons term terms ih => exact ih (pairwise_gather h term)

theorem bound_foldl_gather {columns : Nat} {row : SparseRow α} {terms : List (Nat × α)}
    (hbound : ∀ t ∈ row, t.1 < columns) (hterms : ∀ t ∈ terms, t.1 < columns) :
    ∀ t ∈ terms.foldl gather row, t.1 < columns := by
  induction terms generalizing row with
  | nil => exact hbound
  | cons term terms ih =>
    refine ih ?_ fun t ht => hterms t (by simp [ht])
    intro t ht
    obtain ht | ⟨u, hu, ht⟩ := mem_gather ht
    · rw [ht]
      exact hterms term (by simp)
    · rw [ht]
      exact hbound u hu

theorem fits_filter_nonzero {columns : Nat} {row : SparseRow α}
    (hrow : row.Pairwise (·.1 < ·.1)) (hbound : ∀ t ∈ row, t.1 < columns) :
    Fits columns (row.filter (nonzero ·.2)) := by
  refine ⟨⟨hrow.filter _, ?_⟩, ?_⟩
  · intro t ht
    simpa [nonzero] using (List.mem_filter.1 ht).2
  · intro t ht
    exact hbound t (List.mem_filter.1 ht).1

theorem fits_ofTerms {columns : Nat} {terms : List (Nat × α)} (h : ∀ t ∈ terms, t.1 < columns) :
    (ofTerms terms).Fits columns :=
  fits_filter_nonzero (pairwise_foldl_gather .nil terms) (bound_foldl_gather (by simp) h)

theorem fits_ofDense (values : List α) : (ofDense values).Fits values.length := by
  apply fits_filter_nonzero
  · rw [List.pairwise_map, List.pairwise_iff_getElem]
    intro i j hi hj hij
    simpa using hij
  · intro t ht
    obtain ⟨u, hu, rfl⟩ := List.mem_map.1 ht
    simpa using List.snd_lt_of_mem_zipIdx hu

end LinProg.SparseRow
