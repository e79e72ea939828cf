import LinProg.Proofs.Binding.Command
import LinProg.Proofs.Sampler.Augmented
import LinProg.Sampler.Walk

namespace LinProg

variable {α : Type} [Scalar α] {B : Backend α}

structure TiesColumn (n k : Nat) (r : ModelRow α) : Prop where
  sense : r.sense = .equal
  range : r.range = 0
  terms : r.terms = [(k, 1)] ∨ ∃ v, r.terms = [(k, 1), (n, v)]

theorem tiesColumn_lineRow (n k : Nat) (a b : α) : TiesColumn n k (lineRow n k a b) := by
  refine ⟨rfl, rfl, ?_⟩
  rw [lineRow]
  split
  · exact .inl rfl
  · exact .inr ⟨-b, rfl⟩

/-- What the row held before does not matter to what it holds after it was written. -/
theorem TiesColumn.write [LawfulScalar α] {n k : Nat} {r : ModelRow α} (h : TiesColumn n k r)
    (hk : k < n) (a b : α) :
    (RowWrite.rhs a).apply ((RowWrite.term n (-b)).apply r) = lineRow n k a b := by
  have hset : r.terms.set n (-b) = if Scalar.isZero b then [(k, 1)] else [(k, 1), (n, -b)] := by
    rw [← LawfulScalar.isZero_neg b]
    obtain ht | ⟨v, ht⟩ := h.terms
    · cases hz : Scalar.isZero (-b) <;> simp [ht, SparseRow.set, hk, hz]
    · cases hz : Scalar.isZero (-b) <;> simp [ht, SparseRow.set, hk, hz]
  rw [RowWrite.apply, RowWrite.apply, hset, h.sense, h.range, lineRow]

def LineFits (n : Nat) : Option (Line α) → Prop
  | none => True
  | some (origin, direction) => origin.length = n ∧ direction.length = n

theorem length_lineBlock {n : Nat} {line : Option (Line α)} (h : LineFits n line) :
    (lineBlock n line).length = n := by
  cases line with
  | none => simp [lineBlock]
  | some line => simp [lineBlock, h.1, h.2]

theorem tiesColumn_lineBlock {n k : Nat} {line : Option (Line α)}
    (hk : k < (lineBlock n line).length) : TiesColumn n k (lineBlock n line)[k] := by
  cases line with
  | none => exact ⟨by simp [lineBlock], by simp [lineBlock], .inl (by simp [lineBlock])⟩
  | some line => simpa [lineBlock] using tiesColumn_lineRow n k _ _

theorem fits_lineRow [LawfulScalar α] {n k : Nat} (hk : k < n) (a b : α) :
    (lineRow n k a b).terms.Fits (n + 1) := by
  rw [lineRow]
  split
  · exact SparseMatrix.fits_units (List.mem_map_of_mem (List.mem_range.2 hk))
  · rename_i hb
    have hneg : Scalar.isZero (-b) = false := by
      rw [LawfulScalar.isZero_neg]
      simpa using hb
    have hlast : SparseRow.Fits (n + 1) [(n, -b)] :=
      SparseRow.fits_cons.2 ⟨⟨by simp, hneg⟩, Nat.lt_succ_self n, SparseRow.fits_nil (n + 1)⟩
    exact SparseRow.fits_cons.2
      ⟨⟨by simpa using hk, LawfulScalar.isZero_one⟩, Nat.lt_succ_of_lt hk, hlast⟩

theorem fits_lineBlock [LawfulScalar α] {n : Nat} {line : Option (Line α)} (h : LineFits n line) :
    ∀ r ∈ lineBlock n line, r.terms.Fits (n + 1) := by
  intro r hr
  obtain ⟨k, hk, rfl⟩ := List.getElem_of_mem hr
  have hkn : k < n := length_lineBlock h ▸ hk
  cases line with
  | none =>
    refine SparseMatrix.fits_units (List.mem_map.2 ⟨k, List.mem_range.2 hkn, ?_⟩)
    simp [lineBlock]
  | some line => simpa [lineBlock] using fits_lineRow hkn _ _

theorem lineBlock_rewritten [LawfulScalar α] {n : Nat} {line : Option (Line α)}
    (h : LineFits n line) {origin direction : List α} (ho : origin.length = n)
    (hd : direction.length = n) :
    origin.zipWith (fun a => (RowWrite.rhs a).apply)
      (direction.zipWith (fun b => (RowWrite.term n (-b)).apply) (lineBlock n line)) =
      lineBlock n (some (origin, direction)) := by
  have hl := length_lineBlock h
  have hnew : (lineBlock n (some (origin, direction))).length = n := length_lineBlock ⟨ho, hd⟩
  apply List.ext_getElem (by simp [ho, hd, hl, hnew])
  intro k hk hk'
  have hkn : k < n := hnew ▸ hk'
  have hties : TiesColumn n k (lineBlock n line)[k] := tiesColumn_lineBlock (by rwa [hl])
  simpa [lineBlock] using hties.write hkn origin[k] direction[k]

namespace Binding

/-- A binding of the augmented problem of a polytope, whose last rows are those of a line. -/
structure Tied (p : Problem α) (rows : List (ModelRow α)) (line : Option (Line α))
    (b : Binding B) : Prop where
  aligned : b.Aligned
  problem : p.extended.Rewritten b.problem
  shared : ∀ isShared ∈ b.shared, isShared = true
  rows : b.session.model.rows = rows ++ lineBlock p.columns line

namespace Tied

variable {p : Problem α} {rows : List (ModelRow α)} {line : Option (Line α)}
  {b : Binding B}

theorem of_unmoved (h : b.Tied p rows line) {b' : Binding B} (hb : b.Unmoved b') :
    b'.Tied p rows line where
  aligned := h.aligned.of_unmoved hb
  problem := hb.problem ▸ h.problem
  shared := hb.shared ▸ h.shared
  rows := hb.session.model ▸ h.rows

theorem withClosed (h : b.Tied p rows line) : b.withClosed.Tied p rows line where
  aligned := Step.closed.aligned h.aligned
  problem := h.problem
  shared := h.shared
  rows := h.rows

theorem rename (h : b.Tied p rows line) (name : String) : (b.rename name).Tied p rows line where
  aligned := (Step.renamed name).aligned h.aligned
  problem := h.problem
  shared := h.shared
  rows := h.rows

theorem rows_length (h : b.Tied p rows line) (hline : LineFits p.columns line) :
    b.shared.length = rows.length + p.columns := by
  rw [h.aligned.shared, h.rows, List.length_append, length_lineBlock hline]

theorem columns (h : b.Tied p rows line) : b.problem.columns = p.columns + 1 :=
  Problem.columns_of_frame h.problem.frame

theorem write [LawfulScalar α] (h : b.Tied p rows line) (hline : LineFits p.columns line)
    {origin direction : List α} (ho : origin.length = p.columns)
    (hd : direction.length = p.columns) :
    ∃ b₁ b₂ : Binding B,
      changeCoefficients ((direction.zipIdx rows.length).map fun (d, row) =>
        (row, p.columns, -d)) b = ⟨.ok (), b₁, []⟩ ∧
      changeRhs ((origin.zipIdx rows.length).map fun (a, row) => (row, a)) b₁ =
        ⟨.ok (), b₂, []⟩ ∧
      b₂.Tied p rows (some (origin, direction)) ∧ b.session.SameEngine b₂.session := by
  have hlength := h.rows_length hline
  have hl := length_lineBlock hline
  let coefficients := (direction.zipIdx rows.length).map fun (d, row) => (row, p.columns, -d)
  let values := (origin.zipIdx rows.length).map fun (a, row) => (row, a)
  have hcoefficients : ∀ c ∈ coefficients, c.1 < b.shared.length ∧ c.2.1 < b.problem.columns := by
    intro c hc
    obtain ⟨⟨d, row⟩, ht, rfl⟩ := List.mem_map.1 hc
    have hrow : row < direction.length + rows.length := List.snd_lt_of_mem_zipIdx ht
    rw [hd, Nat.add_comm, ← hlength] at hrow
    exact ⟨hrow, h.columns ▸ Nat.lt_succ_self p.columns⟩
  have hvalues : ∀ c ∈ values, c.1 < b.shared.length := by
    intro c hc
    obtain ⟨⟨a, row⟩, ht, rfl⟩ := List.mem_map.1 hc
    have hrow : row < origin.length + rows.length := List.snd_lt_of_mem_zipIdx ht
    rwa [ho, Nat.add_comm, ← hlength] at hrow
  obtain ⟨q, hcall, hre, hal⟩ := changeCoefficients_apply h.aligned hcoefficients
  obtain ⟨q', hcall', hre', hal'⟩ := changeRhs_apply hal hvalues
  refine ⟨_, _, hcall, hcall', ⟨hal', (h.problem.trans hre).trans hre', h.shared, ?_⟩, rfl, rfl⟩
  let setTerm (d : α) := (RowWrite.term p.columns (-d)).apply
  let setRhs (a : α) := (RowWrite.rhs a).apply
  have hterms : Model.writeRows (coefficients.map Model.termWrite) b.session.model.rows =
      rows ++ direction.zipWith setTerm (lineBlock p.columns line) := by
    rw [h.rows, Model.writeRows, List.map_map, List.foldl_map]
    exact foldl_modify_zipIdx setTerm rows (hd.trans hl.symm)
  have hrhs : Model.writeRows (values.map Model.rhsWrite)
      (rows ++ direction.zipWith setTerm (lineBlock p.columns line)) =
      rows ++ origin.zipWith setRhs (direction.zipWith setTerm (lineBlock p.columns line)) := by
    rw [Model.writeRows, List.map_map, List.foldl_map]
    exact foldl_modify_zipIdx setRhs rows (by simp [ho, hd, hl])
  change Model.writeRows (values.map Model.rhsWrite)
    (Model.writeRows (coefficients.map Model.termWrite) b.session.model.rows) = _
  rw [hterms, hrhs, lineBlock_rewritten hline ho hd]

end Tied

end Binding

end LinProg
