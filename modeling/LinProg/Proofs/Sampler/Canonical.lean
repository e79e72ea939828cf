import LinProg.Proofs.Binding.Canonical
import LinProg.Proofs.Matrix.Built
import LinProg.Proofs.Sampler.Reached

namespace LinProg.Sampler

variable {α : Type} [Scalar α] [LawfulScalar α] {B : Backend α} {G : Type} {p : Problem α}
  {rows : List (ModelRow α)} {line : Option (Line α)} {s : Sampler B G}

theorem OnLine.canonical (h : OnLine p rows line s) (hm : p.MatrixFits) (hrows : p.HasRows rows) :
    s.binding.Canonical := by
  refine ⟨h.tied.aligned, ?_⟩
  rw [h.tied.rows, h.tied.columns, List.forall_mem_append]
  exact ⟨fun r hr => (hm.terms hrows hr).mono (Nat.le_succ p.columns), fits_lineBlock h.fits⟩

omit [LawfulScalar α] in
theorem Reached.valid [Root α] {R : Randomness α G} (h : Reached R p line s) :
    p.validate = .ok () := by
  induction h with
  | new h =>
    obtain ⟨_, hv, -⟩ := Call.result_bind_eq_ok h
    cases hvalid : p.validate with
    | ok u => rfl
    | error e => simp [hvalid] at hv
  | call h c ih => exact ih

/-- However a row was made, its columns are strictly increasing, each of them exists, and none of
its values is a zero: in all matrices, where the stored values are thus those of the positions that
do not hold a zero, and in all models that the engine of a binding or of a sampler can be given. -/
theorem rows_stay_canonical [Root α] (B : Backend α) (R : Randomness α G) :
    (∀ m : SparseMatrix α, m.Built → m.Fits m.columns ∧ m.stored = m.support.card ∧
      ∀ r c, (r, c) ∈ m.support ↔ Scalar.nonzero (m.get r c) = true) ∧
    ∀ p : Problem α, p.Built → p.MatrixFits ∧
      (∀ (memory : B.Memory) (b : Binding B) (cs : List (Command α)) (m : Model α),
        (Binding.bind B memory p ()).result = .ok b → (b.after cs).Gives m → m.Canonical) ∧
      ∀ (line : Option (Line α)) (s : Sampler B G) (m : Model α), Reached R p line s →
        s.binding.Gives m → m.Canonical := by
  refine ⟨fun m hm => ?_, fun p hp => ?_⟩
  · have hfits := hm.fits
    exact ⟨hfits, hfits.stored_eq_card, fun r c => hfits.mem_support⟩
  · have hm := hp.matrixFits
    refine ⟨hm, ?_, ?_⟩
    · intro memory b cs m hb
      exact ((Binding.canonical_of_bind hm hb).after cs).gives
    · intro line s m hs
      have hv := hs.valid
      obtain ⟨-, ⟨rows, hrows⟩, -⟩ := Problem.validate_eq_ok.1 hv
      exact ((hs.onLine hm hv hrows).canonical hm hrows).gives

/-- Two terms that cancel, and a negative zero over the value that is left. -/
def cancelled : SparseMatrix Float :=
  let pushed := ((MatrixChange.pushTerms [(0, 1), (1, 2), (0, -1)]).call (υ := Event Float)
    (.zero 0 2)).state
  ((MatrixChange.set 0 1 (-0)).call (υ := Event Float) pushed).state

theorem cancelled_built : cancelled.Built :=
  ((SparseMatrix.Built.zero 0 2).call _).call _

/-- The terms of a row that cancel, and a list of writes the second of which is refused. -/
theorem upToOne_rows_stay_canonical :
    (cancelled.Built ∧ cancelled.rows = [[]] ∧ cancelled.Fits cancelled.columns ∧
      cancelled.stored = cancelled.support.card) ∧
    (upToOne.Built ∧ ∃ b : Binding exactEmbedded,
      (Binding.bind exactEmbedded () upToOne ()).result = .ok b ∧
      let cs := [.addConstraint ⟨[(0, 1), (0, -1)], .lessEq, 1, none⟩ .sessionOnly,
        .changeCoefficients [(0, 0, -0)], .changeCoefficients [(0, 0, 1), (7, 0, 1)]]
      (b.after cs).session.model.rows.map (·.terms) = [[], []] ∧
        (b.after cs).session.model.Canonical) ∧
    ∃ s : Sampler exactEmbedded Random.Stream, Reached streams upToOne (some ([2], [0])) s ∧
      s.binding.session.model.Canonical := by
  obtain ⟨hmatrices, hproblems⟩ := rows_stay_canonical exactEmbedded streams
  obtain ⟨-, hbindings, hsamplers⟩ := hproblems upToOne upToOne_built
  obtain ⟨hfits, hstored, -⟩ := hmatrices cancelled cancelled_built
  obtain ⟨s, hs⟩ := upToOne_reached
  have hb : (Binding.bind exactEmbedded () upToOne ()).result =
      .ok (Binding.loaded exactEmbedded () upToOne [⟨[(0, 1)], .lessEq, 1, 0⟩]) := by rfl
  have hset : ∃ t : Sampler exactEmbedded Random.Stream,
      Reached streams upToOne (some ([2], [0])) t :=
    ⟨_, hs.setLine upToOne_built.matrixFits upToOne_valid rfl rfl⟩
  obtain ⟨t, ht⟩ := hset
  exact ⟨⟨cancelled_built, by decide +kernel, hfits, hstored⟩,
    ⟨upToOne_built, _, hb, by decide +kernel, hbindings () _ _ _ hb (.inl rfl)⟩,
    t, ht, hsamplers _ t _ ht (.inl rfl)⟩

end LinProg.Sampler
