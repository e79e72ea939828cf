import LinProg.Proofs.Problem.Built
import LinProg.Proofs.Problem.Export
import LinProg.Proofs.Problem.Layout
import LinProg.Proofs.Text.Numeral

namespace LinProg

open Scalar

theorem map_eq_of_map_eq {β γ δ : Type} {f : β → γ} {g : β → δ} {o o' : Option β}
    (h : o.map f = o'.map f) (hg : ∀ x x', o = some x → f x = f x' → g x = g x') :
    o.map g = o'.map g := by
  cases o with
  | none =>
    cases o' with
    | none => rfl
    | some x' => cases h
  | some x =>
    cases o' with
    | none => cases h
    | some x' => exact congrArg some (hg x x' rfl (Option.some.inj h))

variable {α : Type} [Scalar α]

theorem Problem.written_eq {row : SparseRow α} (h : row.Canonical) : written row = row :=
  List.filter_eq_self.2 fun t ht => by simp [nonzero, h.2 t ht]

structure Interval.Outward (i : Interval α) : Prop where
  low : isFinite i.1 = false → value i.1 = .negInf
  high : isFinite i.2 = false → value i.2 = .posInf

theorem ExportBounds.ofInterval_inj [Numeral α] [LawfulNumeral α] {i j : Interval α}
    (hi : i.Outward) (hj : j.Outward) (h : ofInterval i = ofInterval j) : i = j := by
  have hlow (h : isFinite i.1 = false) (h' : isFinite j.1 = false) : i.1 = j.1 :=
    LawfulNumeral.eq_of_infinite h ((hi.low h).trans (hj.low h').symm)
  have hhigh (h : isFinite i.2 = false) (h' : isFinite j.2 = false) : i.2 = j.2 :=
    LawfulNumeral.eq_of_infinite h ((hi.high h).trans (hj.high h').symm)
  cases hl : isFinite i.1 <;> cases hu : isFinite i.2 <;> cases hl' : isFinite j.1 <;>
    cases hu' : isFinite j.2 <;> simp [ofInterval, hl, hu, hl', hu'] at h
  · exact Prod.ext (hlow hl hl') (hhigh hu hu')
  · exact Prod.ext (hlow hl hl') h
  · exact Prod.ext h (hhigh hu hu')
  · exact Prod.ext h.1 h.2

/-- The same number, or zeros of any sign. -/
def Scalar.SameWeight (a b : α) : Prop :=
  a = b ∨ isZero a = true ∧ isZero b = true

namespace Problem

theorem written_cons (t : Nat × α) (terms : List (Nat × α)) :
    written (t :: terms) = if isZero t.2 then written terms else t :: written terms := by
  cases h : isZero t.2 <;> simp [written, nonzero, h]

theorem lt_of_mem_written {xs : List α} {k : Nat} {t : Nat × α}
    (h : t ∈ written ((xs.zipIdx (k + 1)).map fun (v, c) => (c, v))) : k < t.1 := by
  obtain ⟨u, hu, rfl⟩ := List.mem_map.1 (List.mem_filter.1 h).1
  exact List.le_snd_of_mem_zipIdx hu

theorem sameWeight_of_written {xs ys : List α} {k : Nat} (hl : xs.length = ys.length)
    (h : written ((xs.zipIdx k).map fun (v, c) => (c, v)) =
      written ((ys.zipIdx k).map fun (v, c) => (c, v))) : List.Forall₂ SameWeight xs ys := by
  induction xs generalizing ys k with
  | nil =>
    obtain rfl : ys = [] := by simpa using hl.symm
    exact .nil
  | cons x xs ih =>
    cases ys with
    | nil => simp at hl
    | cons y ys =>
      have hl : xs.length = ys.length := by simpa using hl
      simp only [List.zipIdx_cons, List.map_cons, written_cons] at h
      cases hx : isZero x with
      | true =>
        cases hy : isZero y with
        | true =>
          rw [if_pos hx, if_pos hy] at h
          exact .cons (.inr ⟨hx, hy⟩) (ih hl h)
        | false =>
          rw [if_pos hx, if_neg (by simp [hy])] at h
          exact absurd (lt_of_mem_written (h ▸ List.mem_cons_self)) (Nat.lt_irrefl k)
      | false =>
        rw [if_neg (by simp [hx])] at h
        cases hy : isZero y with
        | true =>
          rw [if_pos hy] at h
          exact absurd (lt_of_mem_written (h ▸ List.mem_cons_self)) (Nat.lt_irrefl k)
        | false =>
          rw [if_neg (by simp [hy])] at h
          obtain ⟨hterm, hterms⟩ := List.cons.inj h
          exact .cons (.inl (Prod.mk.inj hterm).2) (ih hl hterms)

theorem written_of_sameWeight {xs ys : List α} (h : List.Forall₂ SameWeight xs ys) (k : Nat) :
    written ((xs.zipIdx k).map fun (v, c) => (c, v)) =
      written ((ys.zipIdx k).map fun (v, c) => (c, v)) := by
  induction h generalizing k with
  | nil => rfl
  | @cons x y xs ys hxy _ ih =>
    simp only [List.zipIdx_cons, List.map_cons, written_cons]
    obtain rfl | ⟨hx, hy⟩ := hxy
    · rw [ih]
    · rw [if_pos hx, if_pos hy, ih]

variable {p q : Problem α}

/-- No lower bound is plus infinity, and no upper one is minus infinity. -/
structure OutwardBounds (p : Problem α) : Prop where
  lower : ∀ a ∈ p.lower, value a ≠ .posInf
  upper : ∀ b ∈ p.upper, value b ≠ .negInf

/-- The parts of two problems that show in their texts are the same. Of a range row this is the
interval, of another row the right-hand side. -/
structure LooksLike (p q : Problem α) : Prop where
  kind : p.kind = q.kind
  direction : p.direction = q.direction
  columns : p.columns = q.columns
  objective : List.Forall₂ SameWeight p.objective q.objective
  matrix : p.matrix = q.matrix
  senses : p.senses = q.senses
  rhs (i : Nat) : p.senses[i]? ≠ some .range → p.rhs[i]? = q.rhs[i]?
  intervals (i : Nat) : p.senses[i]? = some .range → p.rowInterval? i = q.rowInterval? i
  lower : p.lower = q.lower
  upper : p.upper = q.upper
  kinds : p.kinds = q.kinds

omit [Scalar α] in
theorem direction_eq_of_isMaximised (h : p.isMaximised = q.isMaximised) :
    p.direction = q.direction := by
  rw [isMaximised, isMaximised] at h
  cases hp : p.direction <;> cases hq : q.direction <;> simp [hp, hq] at h ⊢

omit [Scalar α] in
theorem kinds_eq_of_columnsOf (hp : p.kinds.length = p.columns) (hq : q.kinds.length = q.columns)
    (hc : p.columns = q.columns) (hi : p.columnsOf .integer = q.columnsOf .integer)
    (hb : p.columnsOf .binary = q.columnsOf .binary) : p.kinds = q.kinds := by
  have hmem (r : Problem α) {c : Nat} (h : c < r.columns) (kind : ColumnKind) :
      c ∈ r.columnsOf kind ↔ r.kinds[c]? = some kind := by
    simp [columnsOf, h]
  refine List.ext_getElem (by rw [hp, hq, hc]) fun c hcp hcq => ?_
  have hint := hmem p (hp ▸ hcp) .integer
  have hbin := hmem p (hp ▸ hcp) .binary
  rw [hi, hmem q (hq ▸ hcq)] at hint
  rw [hb, hmem q (hq ▸ hcq)] at hbin
  rw [List.getElem?_eq_getElem hcp, List.getElem?_eq_getElem hcq] at hint hbin
  cases hkp : p.kinds[c] <;> cases hkq : q.kinds[c] <;> simp [hkp, hkq] at hint hbin ⊢

theorem outward_of_mem (hp : p.FrameValid) (ho : p.OutwardBounds) {i : Interval α}
    (hi : i ∈ p.lower.zip p.upper) : i.Outward := by
  have hb := hp.bounds i hi
  simp only [badBounds, Bool.or_eq_false_iff, isNaN, beq_eq_false_iff_ne] at hb
  have hlow := ho.lower i.1 (List.of_mem_zip hi).1
  have hhigh := ho.upper i.2 (List.of_mem_zip hi).2
  constructor
  · intro h
    cases hv : value i.1 <;> simp_all [isFinite, Extended.isFinite]
  · intro h
    cases hv : value i.2 <;> simp_all [isFinite, Extended.isFinite]

theorem bounds_eq_of_ofInterval [Numeral α] [LawfulNumeral α] (hp : p.FrameValid)
    (hq : q.FrameValid) (hop : p.OutwardBounds) (hoq : q.OutwardBounds)
    (h : (p.lower.zip p.upper).map ExportBounds.ofInterval =
      (q.lower.zip q.upper).map .ofInterval) : p.lower = q.lower ∧ p.upper = q.upper := by
  have hzip : p.lower.zip p.upper = q.lower.zip q.upper :=
    map_inj_of_forall (fun _ _ => ExportBounds.ofInterval_inj) (fun _ => outward_of_mem hp hop)
      (fun _ => outward_of_mem hq hoq) h
  have hunzip {r : Problem α} (hr : r.FrameValid) :
      (r.lower.zip r.upper).unzip = (r.lower, r.upper) :=
    List.unzip_zip (hr.lower.trans hr.upper.symm)
  have hboth : (p.lower, p.upper) = (q.lower, q.upper) := by rw [← hunzip hp, hzip, hunzip hq]
  exact Prod.mk.inj hboth

theorem matrix_eq_of_exported {rows rows' : List (ModelRow α)} (hmp : p.MatrixFits)
    (hmq : q.MatrixFits) (hc : p.columns = q.columns) (hrows : p.HasRows rows)
    (hrows' : q.HasRows rows')
    (h : rows.map ModelRow.exported = rows'.map ModelRow.exported) : p.matrix = q.matrix := by
  have hwritten {r : Problem α} (hm : r.MatrixFits) {rs : List (ModelRow α)} (hr : r.HasRows rs) :
      r.matrix.rows = (rs.map ModelRow.exported).map ExportRow.terms := by
    rw [← hr.terms, List.map_map]
    refine List.map_congr_left fun r' hr' => ?_
    rw [Function.comp_apply, ExportRow.terms_exported, written_eq (hm.terms hr hr').canonical]
  refine SparseMatrix.eq_of_parts ?_ ?_
  · rw [hmp.columns, hc, hmq.columns]
  · rw [hwritten hmp hrows, h, ← hwritten hmq hrows']

theorem looksLike_of_exportOf [Numeral α] [LawfulNumeral α] {rows rows' : List (ModelRow α)}
    (hp : p.FrameValid) (hq : q.FrameValid) (hop : p.OutwardBounds) (hoq : q.OutwardBounds)
    (hmp : p.MatrixFits) (hmq : q.MatrixFits) (hrows : p.HasRows rows) (hrows' : q.HasRows rows')
    (h : p.exportOf rows = q.exportOf rows') : p.LooksLike q := by
  simp only [exportOf, Export.mk.injEq] at h
  obtain ⟨hkind, hmaximised, hobjective, hexported, hbounds, hintegers, hbinaries⟩ := h
  obtain ⟨hlower, hupper⟩ := bounds_eq_of_ofInterval hp hq hop hoq hbounds
  have hcolumns : p.columns = q.columns := by rw [← hp.lower, hlower, hq.lower]
  have hsenses : p.senses = q.senses := by
    simpa [Function.comp_def, ← hrows.senses, ← hrows'.senses] using
      congrArg (List.map ExportRow.sense) hexported
  have hrow (i : Nat) : rows[i]?.map ModelRow.exported = rows'[i]?.map ModelRow.exported := by
    simpa using congrArg (·[i]?) hexported
  refine {
    kind := hkind
    direction := direction_eq_of_isMaximised hmaximised
    columns := hcolumns
    objective := sameWeight_of_written (by rw [hp.objective, hq.objective, hcolumns]) hobjective
    matrix := matrix_eq_of_exported hmp hmq hcolumns hrows hrows' hexported
    senses := hsenses
    rhs := fun i hi => ?_
    intervals := fun i hi => ?_
    lower := hlower
    upper := hupper
    kinds := kinds_eq_of_columnsOf hp.kinds hq.kinds hcolumns hintegers hbinaries }
  · rw [← hrows.rhs, ← hrows'.rhs, List.getElem?_map, List.getElem?_map]
    refine map_eq_of_map_eq (hrow i) fun r r' hr h => ModelRow.rhs_eq_of_exported h fun hs => hi ?_
    rw [← hrows.senses, List.getElem?_map, hr, Option.map_some, hs]
  · rw [hrows.rowInterval?_eq, hrows'.rowInterval?_eq]
    refine map_eq_of_map_eq (hrow i) fun r r' hr h => ModelRow.interval_eq_of_exported h ?_
    simpa [← hrows.senses, hr] using hi

theorem LooksLike.exported_eq {rows rows' : List (ModelRow α)} (h : p.LooksLike q)
    (hrows : p.HasRows rows) (hrows' : q.HasRows rows') :
    rows.map ModelRow.exported = rows'.map ModelRow.exported := by
  have hterms : rows.map (·.terms) = rows'.map (·.terms) := by
    rw [hrows.terms, h.matrix, hrows'.terms]
  have hsenses : rows.map (·.sense) = rows'.map (·.sense) := by
    rw [hrows.senses, h.senses, hrows'.senses]
  have hlength : rows.length = rows'.length := by simpa using congrArg List.length hterms
  refine List.ext_getElem (by simpa using hlength) fun i hi hi' => ?_
  rw [List.length_map] at hi hi'
  have hr : rows[i]? = some rows[i] := List.getElem?_eq_getElem hi
  have hr' : rows'[i]? = some rows'[i] := List.getElem?_eq_getElem hi'
  have hsense : p.senses[i]? = some rows[i].sense := by simp [← hrows.senses, hr]
  rw [List.getElem_map, List.getElem_map]
  refine ModelRow.exported_eq ?_ ?_ (fun hs => ?_) fun hs => ?_
  · simpa [hr, hr'] using congrArg (·[i]?) hterms
  · simpa [hr, hr'] using congrArg (·[i]?) hsenses
  · have hrhs := h.rhs i (by simpa [hsense] using hs)
    simpa [← hrows.rhs, ← hrows'.rhs, hr, hr'] using hrhs
  · have hinterval := h.intervals i (by rw [hsense, hs])
    rw [hrows.rowInterval? hr, hrows'.rowInterval? hr'] at hinterval
    exact Option.some.inj hinterval

theorem LooksLike.exportOf_eq {rows rows' : List (ModelRow α)} (h : p.LooksLike q)
    (hrows : p.HasRows rows) (hrows' : q.HasRows rows') : p.exportOf rows = q.exportOf rows' := by
  simp only [exportOf, Export.mk.injEq]
  refine ⟨h.kind, ?_, written_of_sameWeight h.objective 0, h.exported_eq hrows hrows', ?_, ?_, ?_⟩
  · rw [isMaximised, h.direction, isMaximised]
  · rw [h.lower, h.upper]
  · rw [columnsOf, h.columns, h.kinds, columnsOf]
  · rw [columnsOf, h.columns, h.kinds, columnsOf]

/-- The texts of two problems are there, and they are the same just where the problems look alike.
What is no number has a numeral of its own, so it need not be left out. -/
theorem text_unambiguous [Numeral α] [LawfulNumeral α] (hp : p.Built) (hq : q.Built)
    (hvp : p.validate = .ok ()) (hvq : q.validate = .ok ()) (hop : p.OutwardBounds)
    (hoq : q.OutwardBounds) :
    ∃ t t', p.text? = some t ∧ q.text? = some t' ∧ (t = t' ↔ p.LooksLike q) := by
  obtain ⟨hfp, ⟨rows, hrows⟩, -⟩ := validate_eq_ok.1 hvp
  obtain ⟨hfq, ⟨rows', hrows'⟩, -⟩ := validate_eq_ok.1 hvq
  have hproper (r : Problem α) (rows : List (ModelRow α)) :
      ∀ b ∈ (r.exportOf rows).bounds, b.Proper :=
    List.forall_mem_map.2 fun i _ => ExportBounds.proper_ofInterval i
  refine ⟨(p.exportOf rows).render, (q.exportOf rows').render, ?_, ?_, fun h => ?_, fun h => ?_⟩
  · rw [text?, export?_eq hfp.toColumnsFit hrows, Option.map_some]
  · rw [text?, export?_eq hfq.toColumnsFit hrows', Option.map_some]
  · exact looksLike_of_exportOf hfp hfq hop hoq hp.matrixFits hq.matrixFits hrows hrows'
      (Export.render_inj (hproper p rows) (hproper q rows') h)
  · rw [h.exportOf_eq hrows hrows']

def difference : SparseMatrix Float :=
  ⟨2, [[(0, 1), (1, -1)]]⟩

def oneRange (weight rhs range : Float) : Problem Float where
  columns := 2
  kind := .mixedLinear
  direction := .minimise
  objective := [weight, 1]
  lower := [0, negInf]
  upper := [1, posInf]
  kinds := [.binary, .continuous]
  matrix := difference
  rhs := [rhs]
  senses := [.range]
  ranges := some [range]

theorem difference_fits : difference.Fits 2 := by
  have hone : isZero (1 : Float) = false := by decide +kernel
  have hneg : isZero (-1 : Float) = false := by decide +kernel
  exact ⟨rfl, by simp [difference, SparseRow.fits_cons, SparseRow.fits_nil, hone, hneg]⟩

theorem oneRange_built (weight rhs range : Float) : (oneRange weight rhs range).Built := by
  let data : MatrixData Float := .triples 1 2 difference.toTriples
  have hdata : data.toMatrix 2 = .ok difference := SparseMatrix.ofTriples_toTriples difference_fits
  have hset (p : Problem Float) (hp : p.columns = 2) :
      ((ProblemChange.matrix data).call p).state = { p with matrix := difference } := by
    simp [ProblemChange.call, setMatrix, hp, hdata]
  have hempty : (empty 0 2 : Except (ProblemError Float) (Problem Float)) = .ok _ := rfl
  have hmatrix := (Built.empty hempty).call (.matrix data)
  rw [hset _ rfl] at hmatrix
  have hcolumns := ((((((hmatrix.call (.kind .mixedLinear)).call (.direction .minimise)).call
    (.objective [weight, 1])).call (.lower [0, negInf])).call (.upper [1, posInf])).call
    (.kinds [.binary, .continuous]))
  exact ((hcolumns.call (.rhs [rhs])).call (.senses [.range])).call (.ranges (some [range]))

theorem oneRange_looksLike :
    let p := oneRange 0 0 2
    let q := oneRange (-0) 2 (-2)
    p.rhs ≠ q.rhs ∧ ∃ t, p.text? = some t ∧ q.text? = some t ∧ p.LooksLike q := by
  intro p q
  have hp : p.OutwardBounds := ⟨by decide +kernel, by decide +kernel⟩
  have hq : q.OutwardBounds := ⟨by decide +kernel, by decide +kernel⟩
  have htext : p.text? = q.text? := by decide +kernel
  obtain ⟨t, t', ht, ht', hlooks⟩ := text_unambiguous (oneRange_built 0 0 2)
    (oneRange_built (-0) 2 (-2)) (by decide +kernel) (by decide +kernel) hp hq
  obtain rfl : t = t' := Option.some.inj (ht.symm.trans (htext.trans ht'))
  exact ⟨by decide +kernel, t, ht, ht', hlooks.1 rfl⟩

end Problem

end LinProg
