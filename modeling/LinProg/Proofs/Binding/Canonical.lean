import LinProg.Proofs.Binding.Runs
import LinProg.Proofs.Problem.Built

namespace LinProg

variable {α : Type} [Scalar α]

def Model.Canonical (m : Model α) : Prop :=
  ∀ r ∈ m.rows, r.terms.Fits m.numCols

theorem Probe.rows_model (p : Probe α) (m : Model α) :
    (p.model m).rows = m.rows ++ p.row?.toList.map .ofConstraint := by
  have hrow : (p.model m).rows = (m.withRow p.row?).rows := by
    rw [model]
    cases p.override? <;> cases p.row? <;> cases p.point? <;> rfl
  rw [hrow]
  cases p.row? with
  | none => exact (List.append_nil _).symm
  | some c => rfl

namespace Binding

variable {B : Backend α} {b b' : Binding B}

structure Canonical (b : Binding B) : Prop extends b.Aligned where
  terms : ∀ r ∈ b.session.model.rows, r.terms.Fits b.problem.columns

theorem Step.canonical {rs : List (NewRow α)} (hs : b.Step rs b') (h : b.Canonical) :
    b'.Canonical := by
  refine ⟨hs.aligned h.toAligned, ?_⟩
  rw [hs.columns]
  exact hs.forall_terms (fun _ ht => SparseRow.fits_ofTerms ht)
    (fun _ _ value hrow hc => hrow.set hc value) h.terms

theorem canonical_of_bind {σ : Type} {memory : B.Memory} {p : Problem α} {s : σ} {b : Binding B}
    (hm : p.MatrixFits) (h : (bind B memory p s).result = .ok b) : b.Canonical := by
  have haligned := bind_aligned h
  obtain ⟨-, -, rows, hrows, rfl⟩ := bind_eq_ok h
  exact ⟨haligned, fun r => hm.terms hrows⟩

theorem Canonical.after (h : b.Canonical) (cs : List (Command α)) : (b.after cs).Canonical :=
  keeps_after (fun _ c h => (c.step h.toAligned).canonical h) h cs

/-- The row of a probe has no part in the session afterwards, but the engine sees it. -/
theorem Canonical.gives (h : b.Canonical) {m : Model α} (hm : b.Gives m) : m.Canonical := by
  obtain rfl | ⟨p, hm⟩ := hm
  · rw [Model.Canonical, h.numCols]
    exact h.terms
  · obtain ⟨rfl, hp⟩ := p.ran h.toAligned hm
    rw [Model.Canonical, hp.numCols h.toAligned, p.rows_model, List.forall_mem_append,
      List.forall_mem_map]
    refine ⟨h.terms, fun c hc => ?_⟩
    exact SparseRow.fits_ofTerms (hp.row c (Option.mem_toList.1 hc))

end Binding

end LinProg
