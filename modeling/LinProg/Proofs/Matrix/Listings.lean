import LinProg.Proofs.Matrix.Reads

namespace LinProg.SparseMatrix

variable {υ α : Type} [Scalar α] {m m' : SparseMatrix α} {n : Nat}

open Scalar

theorem Fits.ext [LawfulScalar α] (h : m.Fits n) (h' : m'.Fits n) (hnum : m.numRows = m'.numRows)
    (hget : ∀ r c, m.get r c = m'.get r c) : m = m' := by
  refine eq_of_parts (h.columns.trans h'.columns.symm) (List.ext_getElem hnum fun r hr hr' => ?_)
  refine (h.rows _ (List.getElem_mem hr)).canonical.ext
    (h'.rows _ (List.getElem_mem hr')).canonical fun c => ?_
  rw [← get_eq_getElem hr, ← get_eq_getElem hr', hget]

omit [Scalar α] in
theorem build_of_ok {change : MatrixCall Empty α Unit} {es : List Empty}
    (h : change m = ⟨.ok (), m', es⟩) : build change m = .ok m' := by
  rw [build, h]
  rfl

omit [Scalar α] in
theorem forM_push {π : Type} {push : π → MatrixCall υ α Unit} {row : π → SparseRow α} {xs : List π}
    (h : ∀ x ∈ xs, ∀ m : SparseMatrix α, m.columns = n →
      push x m = ⟨.ok (), m.withRows (m.rows ++ [row x]), []⟩) (hm : m.columns = n) :
    xs.forM push m = ⟨.ok (), m.withRows (m.rows ++ xs.map row), []⟩ := by
  induction xs generalizing m with
  | nil => rw [List.map_nil, List.append_nil]; rfl
  | cons x xs ih =>
    obtain ⟨hx, hxs⟩ := List.forall_mem_cons.1 h
    have hrest := ih (m := m.withRows (m.rows ++ [row x])) hxs hm
    rw [withRows_rows, List.append_assoc] at hrest
    rw [Call.forM_cons]
    exact Call.bind_eq (hx m hm) hrest

theorem ofDense_apply {rows : List (List α)} (h : ∀ row ∈ rows, row.length = n) :
    ofDense n rows = .ok ⟨n, rows.map .ofDense⟩ :=
  build_of_ok (forM_push (fun row hrow _ hm => pushDense_apply (hm ▸ h row hrow)) rfl)

def fullTriples (rows : List (List α)) : List (Nat × Nat × α) :=
  rows.zipIdx.flatMap fun (row, r) => (SparseRow.fullTerms row).map fun (c, v) => (r, c, v)

omit [Scalar α] in
theorem valuesAt_append (triples triples' : List (Nat × Nat × α)) (r c : Nat) :
    valuesAt (triples ++ triples') r c = valuesAt triples r c ++ valuesAt triples' r c := by
  simp [valuesAt]

omit [Scalar α] in
theorem valuesAt_row (terms : List (Nat × α)) (i r c : Nat) :
    valuesAt (terms.map fun (c, v) => (i, c, v)) r c =
      if i = r then SparseRow.valuesAt terms c else [] := by
  induction terms with
  | nil => simp [valuesAt, SparseRow.valuesAt]
  | cons t terms ih =>
    rw [List.map_cons, valuesAt_cons, ih, SparseRow.valuesAt_cons]
    by_cases hi : i = r <;> simp [hi]

omit [Scalar α] in
theorem valuesAt_rows (rows : List (List α)) (n r c : Nat) :
    valuesAt ((rows.zipIdx n).flatMap fun (row, r) =>
        (SparseRow.fullTerms row).map fun (c, v) => (r, c, v)) r c =
      if n ≤ r then (rows[r - n]?.bind (·[c]?)).toList else [] := by
  induction rows generalizing n with
  | nil => simp [valuesAt]
  | cons row rows ih =>
    rw [List.zipIdx_cons, List.flatMap_cons, valuesAt_append, ih, valuesAt_row]
    obtain hr | rfl | hr := Nat.lt_trichotomy r n
    · simp [Nat.not_le.2 hr, Nat.not_le.2 (Nat.lt_succ_of_lt hr), Nat.ne_of_gt hr]
    · simp [SparseRow.valuesAt_fullTerms]
    · have hsub : r - n = (r - (n + 1)) + 1 := by omega
      simp [Nat.le_of_lt hr, Nat.succ_le_of_lt hr, Nat.ne_of_lt hr, hsub]

omit [Scalar α] in
theorem valuesAt_fullTriples (rows : List (List α)) (r c : Nat) :
    valuesAt (fullTriples rows) r c = (rows[r]?.bind (·[c]?)).toList :=
  (valuesAt_rows rows 0 r c).trans (if_pos (Nat.zero_le r))

omit [Scalar α] in
theorem mem_fullTriples {rows : List (List α)} (h : ∀ row ∈ rows, row.length = n)
    {t : Nat × Nat × α} (ht : t ∈ fullTriples rows) : t.1 < rows.length ∧ t.2.1 < n := by
  obtain ⟨⟨row, i⟩, hrow, ht⟩ := List.mem_flatMap.1 ht
  obtain ⟨u, hu, rfl⟩ := List.mem_map.1 ht
  rw [← h row (List.fst_mem_of_mem_zipIdx hrow)]
  exact ⟨by simpa using List.snd_lt_of_mem_zipIdx hrow, SparseRow.mem_fullTerms hu⟩

theorem get_rows (columns : Nat) (rows : List (List α)) (r c : Nat) :
    (⟨columns, rows.map .ofDense⟩ : SparseMatrix α).get r c =
      kept ((rows[r]?.bind (·[c]?)).getD 0) := by
  rw [get, List.getElem?_map]
  cases rows[r]? with
  | none => exact kept_zero.symm
  | some row => exact SparseRow.get_ofDense row c

theorem ofTriples_fullTriples [LawfulScalar α] {rows : List (List α)}
    (h : ∀ row ∈ rows, row.length = n) {triples : List (Nat × Nat × α)}
    (ht : triples.Perm (fullTriples rows)) :
    ofTriples rows.length n triples = .ok ⟨n, rows.map .ofDense⟩ := by
  obtain ⟨m, hm, hshape, hget⟩ := ofTriples_apply fun t htr =>
    mem_fullTriples h (ht.mem_iff.1 htr)
  have hrows : (⟨n, rows.map .ofDense⟩ : SparseMatrix α).Fits n := fits_ofDense (ofDense_apply h)
  have hnum : m.numRows = (rows.map SparseRow.ofDense).length := by
    rw [List.length_map]
    exact congrArg Prod.fst hshape
  rw [hm, (fits_ofTriples hm).ext hrows hnum fun r c => ?_]
  have hvalues : (valuesAt triples r c).Perm (rows[r]?.bind (·[c]?)).toList := by
    rw [← valuesAt_fullTriples]
    exact (ht.filter _).map _
  rw [hget, get_rows]
  cases hv : rows[r]?.bind (·[c]?) with
  | none =>
    rw [hv, Option.toList_none, List.perm_nil] at hvalues
    rw [hvalues]
    exact kept_zero.symm
  | some v =>
    rw [hv, Option.toList_some, List.perm_singleton] at hvalues
    rw [hvalues]
    rfl

theorem pushTerms_fullTerms [LawfulScalar α] [LawfulSum α] {rows : List (List α)}
    (h : ∀ row ∈ rows, row.length = n) {termss : List (List (Nat × α))}
    (ht : List.Forall₂ (fun terms row => terms.Perm (SparseRow.fullTerms row)) termss rows) :
    build (termss.forM pushTerms) (zero 0 n) = .ok ⟨n, rows.map .ofDense⟩ := by
  have hbound : ∀ terms ∈ termss, ∀ t ∈ terms, t.1 < n := by
    induction ht with
    | nil => simp
    | cons hperm _ ih =>
      obtain ⟨rfl, hrows⟩ := List.forall_mem_cons.1 h
      exact List.forall_mem_cons.2
        ⟨fun t ht => SparseRow.mem_fullTerms (hperm.mem_iff.1 ht), ih hrows⟩
  have hrows : termss.map SparseRow.ofTerms = rows.map SparseRow.ofDense := by
    rw [← List.forall₂_eq_eq_eq, List.forall₂_map_left_iff, List.forall₂_map_right_iff]
    exact ht.imp fun _ _ hperm => SparseRow.ofTerms_fullTerms hperm
  rw [← hrows]
  exact build_of_ok (forM_push (fun terms hterms _ hm =>
    pushTerms_apply (hm ▸ hbound terms hterms)) rfl)

def Before (t u : Nat × Nat × α) : Prop :=
  t.1 < u.1 ∨ t.1 = u.1 ∧ t.2.1 < u.2.1

omit [Scalar α] in
theorem pairwise_zipIdx {β : Type} (xs : List β) (n : Nat) :
    (xs.zipIdx n).Pairwise (·.2 < ·.2) := by
  rw [← List.pairwise_map, List.zipIdx_map_snd]
  exact List.pairwise_lt_range'

theorem Fits.pairwise_toTriples (h : m.Fits n) : m.toTriples.Pairwise Before := by
  refine List.pairwise_flatMap.2 ⟨?_, ?_⟩
  · rintro ⟨row, i⟩ hrow
    have hlt := (h.rows row (List.fst_mem_of_mem_zipIdx hrow)).canonical.1
    exact List.pairwise_map.2 (hlt.imp fun hc => .inr ⟨rfl, hc⟩)
  · refine (pairwise_zipIdx m.rows 0).imp fun hij t ht u hu => .inl ?_
    obtain ⟨-, -, rfl⟩ := List.mem_map.1 ht
    obtain ⟨-, -, rfl⟩ := List.mem_map.1 hu
    exact hij

def full (m : SparseMatrix α) : List (List α) :=
  m.rows.map fun row => (List.range m.columns).map row.get

theorem Fits.toDense? (h : m.Fits m.columns) : m.toDense? = some m.full :=
  mapM_eq_some_map fun row hrow => (h.rows row hrow).toDense?

theorem Fits.ofDense_full [LawfulScalar α] (h : m.Fits m.columns) :
    ofDense m.columns m.full = .ok m := by
  have hrows : m.full.map SparseRow.ofDense = m.rows := by
    rw [full, List.map_map]
    exact (List.map_congr_left fun row hrow => (h.rows row hrow).ofDense_get).trans
      (List.map_id m.rows)
  rw [ofDense_apply (by simp [full]), hrows]

/-- A matrix comes back from either of its listings, of which the triples are in strict order and
inside of the matrix; and full rows make one matrix in all three ways. -/
theorem listings_rebuild [LawfulScalar α] [LawfulSum α] :
    (∀ m : SparseMatrix α, m.Built →
      ofTriples m.numRows m.columns m.toTriples = .ok m ∧
      (∃ rows, m.toDense? = some rows ∧ ofDense m.columns rows = .ok m) ∧
      m.toTriples.Pairwise Before ∧
      ∀ t ∈ m.toTriples, t.1 < m.numRows ∧ t.2.1 < m.columns) ∧
    ∀ columns (rows : List (List α)), (∀ row ∈ rows, row.length = columns) →
      ∃ m', ofDense columns rows = .ok m' ∧
        (∀ triples, triples.Perm (fullTriples rows) →
          ofTriples rows.length columns triples = .ok m') ∧
        ∀ termss, List.Forall₂ (fun terms row => terms.Perm (SparseRow.fullTerms row)) termss rows →
          build (termss.forM pushTerms) (zero 0 columns) = .ok m' := by
  constructor
  · intro m h
    exact ⟨ofTriples_toTriples h.fits, ⟨m.full, h.fits.toDense?, h.fits.ofDense_full⟩,
      h.fits.pairwise_toTriples, fun t => h.fits.mem_toTriples⟩
  · intro columns rows hrows
    exact ⟨_, ofDense_apply hrows, fun triples => ofTriples_fullTriples hrows,
      fun termss => pushTerms_fullTerms hrows⟩

/-- Positions and terms that come backwards, with zeros among them and an empty row at the end. -/
theorem listings_rebuild_backwards :
    (zero 2 2 : SparseMatrix Float).Built ∧
      ofTriples 2 2 (zero 2 2 : SparseMatrix Float).toTriples = .ok (zero 2 2) ∧
      ∃ m : SparseMatrix Float, ofDense 2 [[0, 1], [0, -0]] = .ok m ∧
        ofTriples 2 2 [(1, 1, -0), (1, 0, 0), (0, 1, 1), (0, 0, 0)] = .ok m ∧
        build ([[(1, 1), (0, 0)], [(1, -0), (0, 0)]].forM pushTerms) (zero 0 2) = .ok m := by
  have hbuilt : (zero 2 2 : SparseMatrix Float).Built := .zero 2 2
  obtain ⟨hmatrix, hrows⟩ := listings_rebuild (α := Float)
  obtain ⟨htriples, -⟩ := hmatrix _ hbuilt
  obtain ⟨m, hdense, htriples', hterms⟩ := hrows 2 [[0, 1], [0, -0]] (by simp)
  refine ⟨hbuilt, htriples, m, hdense, htriples' _ ?_, hterms _ ?_⟩
  · exact List.reverse_perm (fullTriples [[0, 1], [0, -0]])
  · exact .cons (.swap _ _ _) (.cons (.swap _ _ _) .nil)

end LinProg.SparseMatrix
