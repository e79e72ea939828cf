import LinProg.Problem.Validate
import LinProg.Proofs.Problem.RowCalls

/-!
What `validate` accepts. A part of it is about the frame of a problem, and no change of the rows
matters to that. The rest says that the problem has rows at all, and that there are range values if
some row is a range.
-/

namespace LinProg.Problem

variable {α : Type}

def RangesGiven (p : Problem α) : Prop :=
  p.ranges = none → Sense.range ∉ p.senses

theorem RangesGiven.rewritten {p q : Problem α} (h : p.RangesGiven) (hq : p.Rewritten q) :
    q.RangesGiven := by
  rw [RangesGiven, hq.ranges, hq.senses]
  exact h

theorem RangesGiven.dropLast {p : Problem α} (h : p.RangesGiven) (n : Nat) :
    (p.dropLast n).RangesGiven := by
  intro hr hs
  exact h (Option.map_eq_none_iff.1 hr) (List.mem_of_mem_take hs)

theorem checkLength_eq_ok {part : Part} {m n : Nat} :
    (checkLength part m n : Except (ProblemError α) Unit) = .ok () ↔ m = n := by
  simp [checkLength]

theorem seq_eq_ok {c d : Except (ProblemError α) Unit} :
    (c >>= fun _ => d) = .ok () ↔ c = .ok () ∧ d = .ok () := by
  cases c <;> simp [bind, Except.bind]

theorem checkRanges_eq_ok {p : Problem α} : p.checkRanges = .ok () ↔
    (∀ values, p.ranges = some values → values.length = p.numRows) ∧ p.RangesGiven := by
  rw [checkRanges, RangesGiven]
  cases p.ranges with
  | some values => simpa [checkLength_eq_ok] using eq_comm
  | none =>
    cases h : p.senses.findIdx? (· == .range) with
    | none =>
      have hs : ∀ s ∈ p.senses, s ≠ .range := by simpa using h
      simpa using fun hr => hs _ hr rfl
    | some row =>
      have hs : ∃ s ∈ p.senses, s = .range := by
        simpa using congrArg Option.isSome h
      simpa using hs

theorem checkKinds_eq_ok {p : Problem α} : p.checkKinds = .ok () ↔
    (p.kind.allowsIntegers = false → ∀ k ∈ p.kinds, k.isInteger = false) := by
  rw [← find?_zipIdx_eq_none (n := 0), checkKinds]
  cases p.kind.allowsIntegers with
  | true => simp
  | false => cases p.kinds.zipIdx.find? (·.1.isInteger) <;> simp

variable [Scalar α]

theorem RangesGiven.pushRows {p : Problem α} (h : p.RangesGiven) (rs : List (NewRow α)) :
    (p.pushRows rs).RangesGiven ↔ ¬ (p.ranges = none ∧ NewRow.Bare rs) := by
  rw [RangesGiven, ranges_pushRows_eq_none, senses_pushRows]
  constructor
  · rintro hg ⟨hp, ⟨r, hr, hsense⟩, hbare⟩
    exact hg ⟨hp, hbare⟩ (List.mem_append_right _ (List.mem_map.2 ⟨r, hr, hsense⟩))
  · rintro hg ⟨hp, hbare⟩ hs
    obtain hs | hs := List.mem_append.1 hs
    · exact h hp hs
    · obtain ⟨r, hr, hsense⟩ := List.mem_map.1 hs
      exact hg ⟨hp, ⟨r, hr, hsense⟩, hbare⟩

structure FrameValid (p : Problem α) : Prop extends p.ColumnsFit where
  bounds : ∀ b ∈ p.lower.zip p.upper, badBounds b = false
  kindsAllowed : p.kind.allowsIntegers = false → ∀ k ∈ p.kinds, k.isInteger = false

theorem frameValid_frame {p : Problem α} : p.frame.FrameValid ↔ p.FrameValid :=
  ⟨fun ⟨hf, hb, hk⟩ => ⟨columnsFit_frame.1 hf, hb, hk⟩,
    fun ⟨hf, hb, hk⟩ => ⟨columnsFit_frame.2 hf, hb, hk⟩⟩

theorem FrameValid.of_frame {p q : Problem α} (h : p.FrameValid) (hq : q.frame = p.frame) :
    q.FrameValid := by
  rw [← frameValid_frame, hq, frameValid_frame]
  exact h

theorem exists_hasRows {p : Problem α} (hb : p.rhs.length = p.numRows)
    (hs : p.senses.length = p.numRows)
    (hr : ∀ values, p.ranges = some values → values.length = p.numRows) :
    ∃ rows, p.HasRows rows := by
  let ranges := p.ranges.getD (List.replicate p.numRows 0)
  have hranges : ranges.length = p.numRows := by
    cases hv : p.ranges with
    | none => simp [ranges, hv]
    | some values => simpa [ranges, hv] using hr values hv
  let left := p.matrix.rows.zip p.senses
  let right := p.rhs.zip ranges
  have hm : p.matrix.rows.length = p.numRows := rfl
  have hleft : left.length = p.numRows := by simp [left, hm, hs]
  have hright : right.length = p.numRows := by simp [right, hb, hranges]
  have hfst : (left.zip right).map (·.1) = left := List.map_fst_zip (by omega)
  have hsnd : (left.zip right).map (·.2) = right := List.map_snd_zip (by omega)
  refine ⟨(left.zip right).map fun t => ⟨t.1.1, t.1.2, t.2.1, t.2.2⟩, ?_, ?_, ?_, ?_⟩
  · calc _ = ((left.zip right).map (·.1)).map (·.1) := by simp
      _ = p.matrix.rows := by rw [hfst]; exact List.map_fst_zip (by omega)
  · calc _ = ((left.zip right).map (·.1)).map (·.2) := by simp
      _ = p.senses := by rw [hfst]; exact List.map_snd_zip (by omega)
  · calc _ = ((left.zip right).map (·.2)).map (·.1) := by simp
      _ = p.rhs := by rw [hsnd]; exact List.map_fst_zip (by omega)
  · calc _ = ((left.zip right).map (·.2)).map (·.2) := by simp
      _ = ranges := by rw [hsnd]; exact List.map_snd_zip (by omega)
      _ = _ := by simp [ranges, hleft, hright]

theorem checkBounds_eq_ok {p : Problem α} :
    p.checkBounds = .ok () ↔ ∀ b ∈ p.lower.zip p.upper, badBounds b = false := by
  rw [← find?_zipIdx_eq_none (n := 0), checkBounds]
  cases (p.lower.zip p.upper).zipIdx.find? (badBounds ·.1) <;> simp

theorem validate_eq_ok {p : Problem α} :
    p.validate = .ok () ↔ p.FrameValid ∧ (∃ rows, p.HasRows rows) ∧ p.RangesGiven := by
  simp only [validate, seq_eq_ok, checkLength_eq_ok, checkRanges_eq_ok, checkBounds_eq_ok,
    checkKinds_eq_ok]
  constructor
  · rintro ⟨hm, ho, hl, hu, hk, hb, hs, ⟨hr, hg⟩, hbounds, hkinds⟩
    exact ⟨⟨⟨hm.symm, ho.symm, hl.symm, hu.symm, hk.symm⟩, hbounds, hkinds⟩,
      exists_hasRows hb.symm hs.symm hr, hg⟩
  · rintro ⟨⟨⟨hm, ho, hl, hu, hk⟩, hbounds, hkinds⟩, ⟨rows, hrows⟩, hg⟩
    have hb : p.rhs.length = p.numRows := by simp [hrows.numRows, ← hrows.rhs]
    have hs : p.senses.length = p.numRows := by simp [hrows.numRows, ← hrows.senses]
    exact ⟨hm.symm, ho.symm, hl.symm, hu.symm, hk.symm, hb.symm, hs.symm,
      ⟨fun _ => hrows.ranges_length, hg⟩, hbounds, hkinds⟩

end LinProg.Problem
