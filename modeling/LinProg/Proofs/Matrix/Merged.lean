import LinProg.Proofs.Matrix.Columns
import LinProg.Proofs.Scalar.Binary
import LinProg.Proofs.Problem.Built
import LinProg.Proofs.Problem.RowCalls
import Mathlib.Data.List.Dedup

namespace LinProg

variable {α : Type} [Scalar α]

open Scalar

namespace SparseRow

def addTo (m : Nat → Option α) (t : Nat × α) : Nat → Option α :=
  Function.update m t.1 (some ((m t.1).getD 0 + t.2))

def gathered (terms : List (Nat × α)) : Nat → Option α :=
  terms.foldl addTo fun _ => none

/-- The entries of a map, in any order. -/
structure Lists (entries : List (Nat × α)) (m : Nat → Option α) : Prop where
  nodup : (entries.map Prod.fst).Nodup
  mem : ∀ t, t ∈ entries ↔ m t.1 = some t.2

omit [Scalar α] in
theorem Lists.perm {entries entries' : List (Nat × α)} {m : Nat → Option α}
    (h : Lists entries m) (hperm : entries'.Perm entries) : Lists entries' m :=
  ⟨(hperm.map Prod.fst).nodup_iff.2 h.nodup, fun t => hperm.mem_iff.trans (h.mem t)⟩

theorem foldl_addTo (terms : List (Nat × α)) (m : Nat → Option α) (k : Nat) :
    terms.foldl addTo m k = match valuesAt terms k with
      | [] => m k
      | values => some (values.foldl (· + ·) ((m k).getD 0)) := by
  induction terms generalizing m with
  | nil => rfl
  | cons t terms ih =>
    rw [List.foldl_cons, ih, valuesAt_cons, addTo]
    by_cases hk : t.1 = k
    · subst hk
      cases valuesAt terms t.1 <;> simp
    · simp [hk, Ne.symm hk]

theorem gathered_eq_some {terms : List (Nat × α)} {k : Nat} {v : α} :
    gathered terms k = some v ↔ valuesAt terms k ≠ [] ∧ sum (valuesAt terms k) = v := by
  rw [gathered, foldl_addTo]
  cases valuesAt terms k <;> simp [sum]

omit [Scalar α] in
theorem valuesAt_ne_nil {terms : List (Nat × α)} {k : Nat} :
    valuesAt terms k ≠ [] ↔ k ∈ terms.map Prod.fst := by
  simp [valuesAt, List.filter_eq_nil_iff]

def sums (terms : List (Nat × α)) : List (Nat × α) :=
  (terms.map Prod.fst).dedup.map fun k => (k, sum (valuesAt terms k))

theorem lists_sums (terms : List (Nat × α)) : Lists (sums terms) (gathered terms) := by
  constructor
  · have hkeys : (sums terms).map Prod.fst = (terms.map Prod.fst).dedup := by
      rw [sums, List.map_map]
      exact List.map_id _
    rw [hkeys]
    exact List.nodup_dedup _
  · rintro ⟨k, v⟩
    rw [gathered_eq_some, valuesAt_ne_nil]
    simp [sums, eq_comm]

theorem canonical_ofTerms (terms : List (Nat × α)) : (ofTerms terms).Canonical :=
  ⟨(pairwise_foldl_gather .nil terms).filter _, fun t ht => by
    simpa [nonzero] using (List.mem_filter.1 ht).2⟩

variable [LawfulScalar α]

theorem mem_ofTerms {terms : List (Nat × α)} {t : Nat × α} : t ∈ ofTerms terms ↔
    nonzero (sum (valuesAt terms t.1)) = true ∧ t.2 = sum (valuesAt terms t.1) := by
  have hc := canonical_ofTerms terms
  rw [hc.mem_iff, ← nonzero_get_iff hc, get_ofTerms]
  cases hsum : isZero (sum (valuesAt terms t.1)) with
  | true => simp [kept_of_isZero hsum, nonzero, hsum, LawfulScalar.isZero_zero]
  | false =>
    have hkept := kept_of_nonzero (a := sum (valuesAt terms t.1)) (by simp [nonzero, hsum])
    rw [hkept, eq_comm (a := t.2)]

/-- Sorting by column leaves nothing of the order that the entries were listed in. -/
theorem eq_ofTerms_of_lists {terms entries row : List (Nat × α)}
    (hentries : Lists entries (gathered terms)) (hperm : row.Perm (entries.filter (nonzero ·.2)))
    (hsorted : row.Pairwise (·.1 ≤ ·.1)) : row = ofTerms terms := by
  have hnodup : (row.map Prod.fst).Nodup :=
    (hperm.map Prod.fst).nodup_iff.2 (hentries.nodup.sublist (List.filter_sublist.map _))
  have hcanonical : Canonical row := by
    refine ⟨?_, fun t ht => ?_⟩
    · exact hsorted.imp₂ (fun _ _ => Nat.lt_of_le_of_ne) (List.pairwise_map.1 hnodup)
    · simpa [nonzero] using (List.mem_filter.1 (hperm.mem_iff.1 ht)).2
  refine hcanonical.eq_of_mem_iff (canonical_ofTerms terms) fun t => ?_
  rw [hperm.mem_iff, List.mem_filter, hentries.mem, gathered_eq_some, mem_ofTerms]
  constructor
  · rintro ⟨⟨-, hsum⟩, hnonzero⟩
    exact ⟨hsum ▸ hnonzero, hsum.symm⟩
  · rintro ⟨hnonzero, hsum⟩
    refine ⟨⟨fun hnone => ?_, hsum.symm⟩, hsum ▸ hnonzero⟩
    -- The sum of nothing is 0.
    rw [hnone] at hnonzero
    simp [sum, nonzero, LawfulScalar.isZero_zero] at hnonzero

theorem ofTerms_congr {terms terms' : List (Nat × α)}
    (h : ∀ k, valuesAt terms' k = valuesAt terms k) : ofTerms terms' = ofTerms terms :=
  (canonical_ofTerms terms').eq_of_mem_iff (canonical_ofTerms terms) fun t => by
    rw [mem_ofTerms, mem_ofTerms, h]

omit [LawfulScalar α] in
theorem addConstraint_eq_ok {p : Problem α} (hp : p.Built) {c : Constraint α}
    (h : (Problem.addConstraint c p).result = .ok ()) :
    (Problem.addConstraint c p).state = p.pushRow (.ofConstraint c) := by
  cases hc : c.checkColumns p.columns with
  | ok u => rw [Problem.addConstraint_apply hp.matrixFits.columns hc]
  | error e =>
    rw [Problem.addConstraint_refused hc] at h
    cases h

/-- The row of a list of terms has the columns whose values do not add up to zero, each once and in
order, with the sum of its values. However a map that the terms are added to lists its entries, that
row is left when they are sorted, so only the values of each column count, in their order. And a
constraint leaves the same row in a problem and in a model. -/
theorem terms_add_up_by_column :
    (∀ terms : List (Nat × α),
      (ofTerms terms).Pairwise (·.1 < ·.1) ∧
      (∀ c v, (c, v) ∈ ofTerms terms ↔
        nonzero (sum (valuesAt terms c)) = true ∧ v = sum (valuesAt terms c)) ∧
      (∃ entries, Lists entries (gathered terms)) ∧
      (∀ entries row, Lists entries (gathered terms) →
        row.Perm (entries.filter (nonzero ·.2)) → row.Pairwise (·.1 ≤ ·.1) →
        row = ofTerms terms) ∧
      ∀ terms', (∀ c, valuesAt terms' c = valuesAt terms c) → ofTerms terms' = ofTerms terms) ∧
    ∀ (p : Problem α) (c : Constraint α), p.Built → (Problem.addConstraint c p).result = .ok () →
      ∃ row, (Problem.addConstraint c p).state.matrix.rows = p.matrix.rows ++ [row] ∧
        ∀ m : Model α, (m.addRow c).rows = m.rows ++ [⟨row, c.sense, c.rhs, c.range.getD 0⟩] := by
  constructor
  · intro terms
    exact ⟨(canonical_ofTerms terms).1, fun c v => mem_ofTerms, ⟨_, lists_sums terms⟩,
      fun _ _ => eq_ofTerms_of_lists, fun _ => ofTerms_congr⟩
  · intro p c hp hc
    rw [addConstraint_eq_ok hp hc]
    exact ⟨.ofTerms c.terms, rfl, fun m => rfl⟩

/-- Terms of two columns, one of which cancels: listed backwards, and given in another order. -/
theorem cancelling_terms_add_up :
    let terms : List (Nat × Float) := [(2, 1), (0, 1), (2, -1)]
    let c : Constraint Float := ⟨terms, .lessEq, 1, none⟩
    Lists [(2, 0), (0, 1)] (gathered terms) ∧ ofTerms terms = [(0, 1)] ∧
      ofTerms [(0, 1), (2, 1), (2, -1)] = ofTerms terms ∧
      ∃ p : Problem Float, p.Built ∧ (Problem.addConstraint c p).result = .ok () ∧
        ∃ row, (Problem.addConstraint c p).state.matrix.rows = p.matrix.rows ++ [row] ∧
          ∀ m : Model Float, (m.addRow c).rows = m.rows ++ [⟨row, .lessEq, 1, 0⟩] := by
  intro terms c
  have hsums : sums terms = [(0, 1), (2, 0)] := by decide +kernel
  have hlists : Lists [(2, 0), (0, 1)] (gathered terms) :=
    (hsums ▸ lists_sums terms).perm (.swap _ _ _)
  obtain ⟨hterms, hproblem⟩ := terms_add_up_by_column (α := Float)
  obtain ⟨-, -, -, hlisted, hgiven⟩ := hterms terms
  have hrow : [(0, 1)] = ofTerms terms := by
    refine hlisted _ _ hlists ?_ (List.pairwise_singleton _ _)
    exact List.Perm.of_eq (by decide +kernel)
  have hother : ofTerms [(0, 1), (2, 1), (2, -1)] = ofTerms terms := by
    refine hgiven _ fun k => ?_
    by_cases hk : 0 = k
    · subst hk
      rfl
    · simp [terms, valuesAt_cons, hk]
  have hempty : (Problem.empty 0 3 : Except (ProblemError Float) (Problem Float)) = .ok _ := rfl
  exact ⟨hlists, hrow.symm, hother, _, .empty hempty, rfl, hproblem _ c (.empty hempty) rfl⟩

end SparseRow

end LinProg
