import LinProg.Event
import LinProg.Proofs.Matrix.Canonical
import LinProg.Proofs.Scalar.Lawful
import Mathlib.Algebra.BigOperators.Fin
import Mathlib.Algebra.BigOperators.Ring.Finset

namespace LinProg

variable {α : Type} [Scalar α]

open Scalar

namespace SparseRow

theorem nonzero_get_iff [LawfulScalar α] {row : SparseRow α} (h : row.Canonical) (k : Nat) :
    nonzero (row.get k) = true ↔ k ∈ row.map Prod.fst := by
  induction row with
  | nil => simp [get_nil, nonzero, LawfulScalar.isZero_zero]
  | cons t row ih =>
    obtain ⟨⟨-, hz⟩, hrow⟩ := canonical_cons.1 h
    rw [get_cons, List.map_cons, List.mem_cons, ← ih hrow]
    by_cases hk : k = t.1
    · simp [hk, nonzero, hz]
    · simp [hk]

theorem Canonical.nodup {row : SparseRow α} (h : row.Canonical) : (row.map Prod.fst).Nodup := by
  rw [List.Nodup, List.pairwise_map]
  exact h.1.imp Nat.ne_of_lt

theorem Fits.length_eq_card [LawfulScalar α] {n : Nat} {row : SparseRow α} (h : row.Fits n) :
    row.length = ((Finset.range n).filter fun k => nonzero (row.get k)).card := by
  have hcolumns : (Finset.range n).filter (fun k => nonzero (row.get k)) =
      (row.map Prod.fst).toFinset := by
    ext k
    rw [Finset.mem_filter, Finset.mem_range, List.mem_toFinset, nonzero_get_iff h.canonical]
    refine ⟨And.right, fun hk => ⟨?_, hk⟩⟩
    obtain ⟨t, ht, rfl⟩ := List.mem_map.1 hk
    exact h.bound t ht
  rw [hcolumns, List.toFinset_card_of_nodup h.canonical.nodup, List.length_map]

end SparseRow

namespace SparseMatrix

/-- By a constructor, and by calls of which some may have failed. -/
inductive Built : SparseMatrix α → Prop
  | zero (rows columns : Nat) : Built (zero rows columns)
  | default : Built default
  | ofDense {columns : Nat} {rows : List (List α)} {m : SparseMatrix α}
    (h : ofDense columns rows = .ok m) : Built m
  | ofTriples {rows columns : Nat} {triples : List (Nat × Nat × α)} {m : SparseMatrix α}
    (h : ofTriples rows columns triples = .ok m) : Built m
  | call {m : SparseMatrix α} (h : Built m) (change : MatrixChange α) :
    Built ((change.call : MatrixCall (Event α) α Unit) m).state

variable {m : SparseMatrix α} {n : Nat}

theorem keeps_change (change : MatrixChange α) :
    Call.Preserves (Fits n) (change.call : MatrixCall (Event α) α Unit) := by
  cases change with
  | set row column value => exact keeps_set row column value
  | pushDense values => exact keeps_pushDense values
  | pushTerms terms => exact keeps_pushTerms terms
  | removeLast k => exact keeps_removeLast k

theorem Built.fits (h : m.Built) : m.Fits m.columns := by
  -- No call changes how many columns there are, so the induction keeps the number that was given.
  have hn : ∃ n, m.Fits n := by
    induction h with
    | zero rows columns => exact ⟨columns, fits_zero rows columns⟩
    | default => exact ⟨0, fits_zero 0 0⟩
    | ofDense h => exact ⟨_, fits_ofDense h⟩
    | ofTriples h => exact ⟨_, fits_ofTriples h⟩
    | call h change ih => exact ih.imp fun n hm => (keeps_change change).state hm
  obtain ⟨n, hn⟩ := hn
  exact hn.columns.symm ▸ hn

def support (m : SparseMatrix α) : Finset (Nat × Nat) :=
  (Finset.range m.numRows ×ˢ Finset.range m.columns).filter fun t => nonzero (m.get t.1 t.2)

theorem get_eq_getElem {r : Nat} (hr : r < m.rows.length) (c : Nat) :
    m.get r c = m.rows[r].get c := by
  rw [get, List.getElem?_eq_getElem hr]

variable [LawfulScalar α]

theorem Fits.mem_support (h : m.Fits m.columns) {t : Nat × Nat} :
    t ∈ m.support ↔ nonzero (m.get t.1 t.2) = true := by
  obtain ⟨r, c⟩ := t
  rw [support, Finset.mem_filter, Finset.mem_product, Finset.mem_range, Finset.mem_range]
  refine ⟨And.right, fun hget => ⟨?_, hget⟩⟩
  by_cases hr : r < m.rows.length
  · have hrow := h.rows m.rows[r] (List.getElem_mem hr)
    rw [get_eq_getElem hr, SparseRow.nonzero_get_iff hrow.canonical] at hget
    obtain ⟨t, ht, rfl⟩ := List.mem_map.1 hget
    exact ⟨hr, hrow.bound t ht⟩
  · -- A row that does not exist is read as a row of zeros.
    rw [get, List.getElem?_eq_none (Nat.not_lt.1 hr)] at hget
    simp [nonzero, LawfulScalar.isZero_zero] at hget

theorem Fits.stored_eq_card (h : m.Fits m.columns) : m.stored = m.support.card := by
  let held (r : Nat) := (Finset.range m.columns).filter fun c => nonzero (m.get r c)
  have hrow (i : Fin m.rows.length) : m.rows[i.1].length = (held i).card := by
    rw [(h.rows _ (List.getElem_mem i.2)).length_eq_card]
    simp only [held, get_eq_getElem i.2]
  calc m.stored
      = (m.rows.map List.length).sum := List.length_flatten
    _ = ∑ i : Fin m.rows.length, m.rows[i.1].length := (Fin.sum_univ_fun_getElem _ _).symm
    _ = ∑ i : Fin m.rows.length, (held i).card := Finset.sum_congr rfl fun i _ => hrow i
    _ = ∑ r ∈ Finset.range m.numRows, (held r).card :=
        (Finset.sum_range fun r => (held r).card).symm
    _ = m.support.card := by
        simp only [held, support, Finset.card_filter, Finset.sum_product]

end SparseMatrix

end LinProg
