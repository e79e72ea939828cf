import LinProg.Proofs.Problem.Built
import LinProg.Proofs.Scalar.Lawful
import LinProg.Sampler.Augmented

/-!
The augmented problem of a polytope, written out. It has the rows of the polytope, and below them a
row for each column of it; such a row says where the column is on a line.
-/

namespace LinProg

/-- The origin of a line and its direction. -/
abbrev Line (α : Type) := List α × List α

variable {α : Type} [Scalar α]

open Scalar

/-- The row of column `k` of `n`, whose distance column comes last. -/
def lineRow (n k : Nat) (origin direction : α) : ModelRow α :=
  ⟨if isZero direction then [(k, 1)] else [(k, 1), (n, -direction)], .equal, origin, 0⟩

def lineBlock (n : Nat) : Option (Line α) → List (ModelRow α)
  | none => (List.range n).map fun k => ⟨[(k, 1)], .equal, 0, 0⟩
  | some (origin, direction) =>
    (origin.zip direction).zipIdx.map fun ((a, b), k) => lineRow n k a b

theorem map_lineBlock_none {β : Type} {f : ModelRow α → β} {x : β}
    (h : ∀ k, f ⟨[(k, 1)], .equal, 0, 0⟩ = x) (n : Nat) :
    (lineBlock n none).map f = List.replicate n x := by
  simp [lineBlock, Function.comp_def, h]

namespace SparseMatrix

def units (n : Nat) : List (SparseRow α) :=
  (List.range n).map fun k => [(k, 1)]

theorem fits_units [LawfulScalar α] {n : Nat} {row : SparseRow α} (h : row ∈ units n) :
    row.Fits (n + 1) := by
  obtain ⟨k, hk, rfl⟩ := List.mem_map.1 h
  have hk' : k < n + 1 := Nat.lt_succ_of_lt (List.mem_range.1 hk)
  exact SparseRow.fits_cons.2
    ⟨⟨by simp, LawfulScalar.isZero_one⟩, hk', SparseRow.fits_nil (n + 1)⟩

theorem toTriples_append_units (m : SparseMatrix α) (n : Nat) :
    toTriples ⟨n + 1, m.rows ++ units n⟩ =
      m.toTriples ++ (List.range n).map fun k => (m.numRows + k, k, 1) := by
  have hunits : (units n : List (SparseRow α)).zipIdx m.numRows =
      (List.range n).map fun k => ([(k, 1)], m.numRows + k) := by
    apply List.ext_getElem (by simp [units])
    intro i hi hi'
    simp [units]
  rw [toTriples, toTriples, List.zipIdx_append, List.flatMap_append, Nat.zero_add]
  congr 1
  rw [← numRows, hunits, List.flatMap_map]
  exact List.flatMap_pure_eq_map _ _

end SparseMatrix

namespace Problem

variable {p : Problem α}

def extended (p : Problem α) : Problem α where
  columns := p.columns + 1
  kind := .linear
  direction := .maximise
  objective := List.replicate p.columns 0 ++ [1]
  lower := p.lower ++ [negInf]
  upper := p.upper ++ [posInf]
  kinds := List.replicate (p.columns + 1) .continuous
  matrix := ⟨p.columns + 1, p.matrix.rows ++ SparseMatrix.units p.columns⟩
  rhs := p.rhs ++ List.replicate p.columns 0
  senses := p.senses ++ List.replicate p.columns .equal
  ranges := p.ranges.map (· ++ List.replicate p.columns 0)

theorem HasRows.extended {rows : List (ModelRow α)} (h : p.HasRows rows) :
    p.extended.HasRows (rows ++ lineBlock p.columns none) where
  terms := by
    rw [List.map_append, h.terms]
    simp [Problem.extended, lineBlock, SparseMatrix.units]
  senses := by
    rw [List.map_append, h.senses, map_lineBlock_none fun _ => rfl]
    rfl
  rhs := by
    rw [List.map_append, h.rhs, map_lineBlock_none (x := 0) fun _ => rfl]
    rfl
  ranges := by
    rw [List.map_append, h.ranges, map_lineBlock_none (x := 0) fun _ => rfl]
    cases hv : p.ranges with
    | none => simp [Problem.extended, lineBlock, hv]
    | some values => simp [Problem.extended, hv]

theorem RangesGiven.extended (h : p.RangesGiven) : p.extended.RangesGiven := by
  intro hr hs
  obtain hs | hs := List.mem_append.1 hs
  · exact h (Option.map_eq_none_iff.1 hr) hs
  · cases List.eq_of_mem_replicate hs

theorem FrameValid.extended [LawfulScalar α] (h : p.FrameValid) : p.extended.FrameValid where
  matrix := rfl
  objective := by simp [Problem.extended]
  lower := by simp [Problem.extended, h.lower]
  upper := by simp [Problem.extended, h.upper]
  kinds := by simp [Problem.extended]
  bounds := by
    intro b hb
    have hl : p.lower.length = p.upper.length := by rw [h.lower, h.upper]
    rw [Problem.extended, List.zip_append hl] at hb
    obtain hb | hb := List.mem_append.1 hb
    · exact h.bounds b hb
    · rw [List.mem_singleton.1 hb]
      exact LawfulScalar.badBounds_free
  kindsAllowed := by
    intro _ k hk
    rw [List.eq_of_mem_replicate hk]
    rfl

theorem validate_extended [LawfulScalar α] (h : p.validate = .ok ()) :
    p.extended.validate = .ok () := by
  obtain ⟨hframe, ⟨rows, hrows⟩, hranges⟩ := validate_eq_ok.1 h
  exact validate_eq_ok.2 ⟨hframe.extended, ⟨_, hrows.extended⟩, hranges.extended⟩

theorem toMatrix_augmentedData [LawfulScalar α] (h : p.MatrixFits) :
    p.augmentedData.toMatrix (p.columns + 1) = .ok p.extended.matrix := by
  have hfits : p.extended.matrix.Fits (p.columns + 1) := by
    refine ⟨rfl, fun row hrow => ?_⟩
    obtain hrow | hrow := List.mem_append.1 hrow
    · exact (h.rows row hrow).mono (Nat.le_succ _)
    · exact SparseMatrix.fits_units hrow
  have hnum : p.extended.matrix.numRows = p.numRows + p.columns := by
    simp [SparseMatrix.numRows, Problem.extended, SparseMatrix.units, numRows]
  have hback := SparseMatrix.ofTriples_toTriples hfits
  rw [hnum, Problem.extended, SparseMatrix.toTriples_append_units] at hback
  rw [augmentedData, MatrixData.toMatrix, if_pos rfl]
  exact hback

theorem resize_eq {β : Type} (xs : List β) (k : Nat) (x : β) :
    resize xs (xs.length + k) x = xs ++ List.replicate k x := by
  rw [resize, List.take_of_length_le (Nat.le_add_right _ _), Nat.add_sub_cancel_left]

theorem augmented_eq [LawfulScalar α] (hm : p.MatrixFits) (hv : p.validate = .ok ()) :
    p.augmented = .ok p.extended := by
  obtain ⟨-, ⟨rows, hrows⟩, -⟩ := validate_eq_ok.1 hv
  have hrhs : resize p.rhs (p.numRows + p.columns) 0 = p.extended.rhs := by
    rw [hrows.numRows, ← hrows.rhs_length]
    exact resize_eq p.rhs p.columns 0
  have hsenses : resize p.senses (p.numRows + p.columns) .equal = p.extended.senses := by
    rw [hrows.numRows, ← hrows.senses_length]
    exact resize_eq p.senses p.columns .equal
  have hranges : p.ranges.map (resize · (p.numRows + p.columns) 0) = p.extended.ranges := by
    cases hr : p.ranges with
    | none => simp [Problem.extended, hr]
    | some values =>
      have hvalues := resize_eq values p.columns 0
      rw [hrows.ranges_length hr] at hvalues
      simp [Problem.extended, hr, hvalues]
  have hvalid := validate_extended hv
  simp only [augmented, toMatrix_augmentedData hm, hrhs, hsenses, hranges]
  change (p.extended.validate.mapError Failure.error >>= fun _ => pure p.extended) = _
  rw [hvalid]
  rfl

end Problem

end LinProg
