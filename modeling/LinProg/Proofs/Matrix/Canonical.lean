import LinProg.Proofs.Matrix.Basic
import LinProg.Proofs.Matrix.Row
import LinProg.Proofs.Place

namespace LinProg.SparseMatrix

variable {υ α : Type} [Scalar α]

structure Fits (n : Nat) (m : SparseMatrix α) : Prop where
  columns : m.columns = n
  rows : ∀ row ∈ m.rows, row.Fits n

variable {m : SparseMatrix α} {n : Nat}

theorem Fits.append (h : m.Fits n) {row : SparseRow α} (hrow : row.Fits n) :
    (m.withRows (m.rows ++ [row])).Fits n := by
  refine ⟨h.columns, fun r hr => ?_⟩
  obtain hr | hr := List.mem_append.1 hr
  · exact h.rows r hr
  · rwa [List.mem_singleton.1 hr]

theorem fits_zero (rows columns : Nat) : (zero rows columns : SparseMatrix α).Fits columns := by
  refine ⟨rfl, fun r hr => ?_⟩
  rw [List.eq_of_mem_replicate hr]
  exact SparseRow.fits_nil columns

theorem keeps_set (row column : Nat) (value : α) : Call.Preserves (Fits n)
    (set row column value : MatrixCall υ α Unit) := by
  intro r m hm
  by_cases h : row < m.numRows ∧ column < m.columns
  · rw [set_apply h.1 h.2]
    have hc : column < n := hm.columns ▸ h.2
    exact ⟨hm.columns, forall_mem_modify hm.rows (fun r hr => hr.set hc value) row⟩
  · rw [set_refused h]
    exact hm

theorem keeps_pushTerms (terms : List (Nat × α)) : Call.Preserves (Fits n)
    (pushTerms terms : MatrixCall υ α Unit) := by
  intro r m hm
  by_cases h : ∀ t ∈ terms, t.1 < m.columns
  · rw [pushTerms_apply h]
    rw [hm.columns] at h
    exact hm.append (SparseRow.fits_ofTerms h)
  · obtain ⟨index, hr⟩ := pushTerms_refused h
    rw [hr]
    exact hm

theorem keeps_pushDense (values : List α) : Call.Preserves (Fits n)
    (pushDense values : MatrixCall υ α Unit) := by
  intro r m hm
  by_cases h : values.length = m.columns
  · rw [pushDense_apply h]
    have hrow := SparseRow.fits_ofDense values
    rw [h, hm.columns] at hrow
    exact hm.append hrow
  · rw [pushDense_refused h]
    exact hm

theorem keeps_removeLast (k : Nat) : Call.Preserves (Fits n)
    (removeLast k : MatrixCall υ α Unit) := by
  intro r m hm
  by_cases h : k ≤ m.numRows
  · rw [removeLast_apply h]
    exact ⟨hm.columns, fun r hr => hm.rows r (List.mem_of_mem_take hr)⟩
  · rw [removeLast_refused (Nat.not_le.1 h)]
    exact hm

theorem fits_of_build {change : MatrixCall Empty α Unit} {m' : SparseMatrix α}
    (hc : Call.Preserves (Fits n) change)
    (hm : m.Fits n) (h : build change m = .ok m') : m'.Fits n := by
  have hs := hc.state hm
  rw [build] at h
  cases hr : (change m).result with
  | ok u =>
    simp only [hr, Except.map, Except.ok.injEq] at h
    rwa [← h]
  | error f => simp [hr, Except.map] at h

theorem fits_ofDense {rows : List (List α)} (h : ofDense n rows = .ok m) :
    m.Fits n :=
  fits_of_build (Call.keeps_forM fun _ _ => keeps_pushDense _) (fits_zero 0 n) h

theorem fits_ofTriples {rows : Nat} {triples : List (Nat × Nat × α)}
    (h : ofTriples rows n triples = .ok m) : m.Fits n :=
  fits_of_build (Call.keeps_forM fun _ _ => keeps_set _ _ _) (fits_zero rows n) h

def store (rows : List (SparseRow α)) (triple : Nat × Nat × α) : List (SparseRow α) :=
  rows.modify triple.1 (SparseRow.set · triple.2.1 triple.2.2)

@[simp] theorem numRows_store (m : SparseMatrix α) (triple : Nat × Nat × α) :
    (m.withRows (store m.rows triple)).numRows = m.numRows := by
  simp [numRows, store]

theorem forM_set {triples : List (Nat × Nat × α)}
    (h : ∀ t ∈ triples, t.1 < m.numRows ∧ t.2.1 < m.columns) :
    (triples.forM fun (r, c, v) => (set r c v : MatrixCall υ α Unit)) m =
      ⟨.ok (), m.withRows (triples.foldl store m.rows), []⟩ := by
  induction triples generalizing m with
  | nil => rfl
  | cons t triples ih =>
    obtain ⟨r, c, v⟩ := t
    have ht : r < m.numRows ∧ c < m.columns := h (r, c, v) (by simp)
    have hset := set_apply (υ := υ) ht.1 ht.2 v
    have hrest : ∀ t ∈ triples, t.1 < (m.withRows (store m.rows (r, c, v))).numRows ∧
        t.2.1 < (m.withRows (store m.rows (r, c, v))).columns := by
      intro t ht
      rw [numRows_store]
      exact h t (by simp [ht])
    rw [Call.forM_cons]
    exact Call.bind_eq hset (ih hrest)

theorem ofTriples_eq {rows : Nat} {triples : List (Nat × Nat × α)}
    (h : ∀ t ∈ triples, t.1 < rows ∧ t.2.1 < n) : ofTriples rows n triples =
      .ok ⟨n, triples.foldl store (List.replicate rows [])⟩ := by
  have hset : (triples.forM fun (r, c, v) => (set r c v : MatrixCall Empty α Unit))
      (zero rows n) = ⟨.ok (), ⟨n, triples.foldl store (List.replicate rows [])⟩, []⟩ :=
    forM_set (by simpa [zero, numRows] using h)
  rw [ofTriples, build, hset]
  rfl

theorem foldl_store (rows : List (SparseRow α)) (row : SparseRow α) (i : Nat) :
    (row.map fun (c, v) => (i, c, v)).foldl store rows =
      rows.modify i fun r => row.foldl (fun r t => r.set t.1 t.2) r := by
  induction row generalizing rows with
  | nil => exact (List.modify_id i rows).symm
  | cons t row ih =>
    rw [List.map_cons, List.foldl_cons, ih, store, List.modify_modify_eq]
    rfl

theorem Fits.mem_toTriples (h : m.Fits n) {t : Nat × Nat × α} (ht : t ∈ m.toTriples) :
    t.1 < m.numRows ∧ t.2.1 < n := by
  obtain ⟨⟨row, i⟩, hrow, ht⟩ := List.mem_flatMap.1 ht
  obtain ⟨u, hu, rfl⟩ := List.mem_map.1 ht
  have hi : i < m.rows.length := by simpa using List.snd_lt_of_mem_zipIdx hrow
  exact ⟨hi, (h.rows row (List.fst_mem_of_mem_zipIdx hrow)).bound u hu⟩

theorem ofTriples_toTriples (h : m.Fits n) : ofTriples m.numRows n m.toTriples = .ok m := by
  let fill (row r : SparseRow α) : SparseRow α := row.foldl (fun r t => r.set t.1 t.2) r
  have hl : m.rows.length = (List.replicate m.numRows ([] : SparseRow α)).length := by
    simp [numRows]
  have hrows : m.rows.zipWith fill (List.replicate m.numRows []) = m.rows := by
    apply List.ext_getElem (by simp [numRows])
    intro i hi hi'
    rw [List.getElem_zipWith, List.getElem_replicate]
    exact SparseRow.foldl_set (h.rows _ (List.getElem_mem hi')).canonical
  have hfill := foldl_modify_zipIdx fill [] hl
  rw [hrows] at hfill
  rw [ofTriples_eq fun t => h.mem_toTriples, toTriples, List.foldl_flatMap]
  simp only [foldl_store]
  rw [← h.columns]
  exact congrArg (fun rows => Except.ok (m.withRows rows)) hfill

end LinProg.SparseMatrix
