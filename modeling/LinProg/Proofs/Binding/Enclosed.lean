import LinProg.Proofs.Binding.Answer
import LinProg.Proofs.Session.Pinned

namespace LinProg

open Scalar

variable {α : Type} [Scalar α] {x lower upper : List α}

/-- As far as all three lists reach, the coordinates are within the bounds. -/
def Between (lower upper x : List α) : Prop :=
  ∀ (k : Nat) (v l u : α), x[k]? = some v → lower[k]? = some l → upper[k]? = some u →
    le l v = true ∧ le v u = true

theorem between_nil : Between lower upper [] := by
  intro k v l u hv
  simp at hv

theorem between_cons {v l u : α} : Between (l :: lower) (u :: upper) (v :: x) ↔
    (le l v = true ∧ le v u = true) ∧ Between lower upper x := by
  constructor
  · intro h
    exact ⟨h 0 v l u rfl rfl rfl, fun k => h (k + 1)⟩
  · rintro ⟨hhead, htail⟩ k v' l' u' hv hl hu
    cases k with
    | zero =>
      obtain rfl := Option.some.inj hv
      obtain rfl := Option.some.inj hl
      obtain rfl := Option.some.inj hu
      exact hhead
    | succ k => exact htail k v' l' u' hv hl hu

theorem Binding.firstOutside?_cases {column : Nat} (hl : lower.length = x.length)
    (hu : upper.length = x.length) :
    firstOutside? column x lower upper = some none ∧ Between lower upper x ∨
      (∃ k, firstOutside? column x lower upper = some (some k)) ∧ ¬ Between lower upper x := by
  induction x generalizing column lower upper with
  | nil => exact .inl ⟨rfl, between_nil⟩
  | cons v x ih =>
    match lower, upper with
    | [], _ => simp at hl
    | _ :: _, [] => simp at hu
    | l :: lower, u :: upper =>
      rw [firstOutside?, between_cons, ← Bool.and_eq_true_iff]
      split
      · rename_i hin
        simpa [hin] using ih (Nat.succ.inj hl) (Nat.succ.inj hu)
      · rename_i hout
        exact .inr ⟨⟨column, rfl⟩, fun h => hout h.1⟩

namespace Problem

variable {p : Problem α}

def Encloses (p : Problem α) (x : List α) : Prop :=
  Between p.lower p.upper x

/-- Some coordinate of a point is no number, or it is beyond a bound of its column. -/
def Excludes (p : Problem α) (x : List α) : Prop :=
  ∃ (k : Nat) (v l u : α), x[k]? = some v ∧ p.lower[k]? = some l ∧ p.upper[k]? = some u ∧
    (isNaN v = true ∨ lt v l = true ∨ lt u v = true)

theorem FrameValid.number_bounds (h : p.FrameValid) {k : Nat} {l u : α}
    (hl : p.lower[k]? = some l) (hu : p.upper[k]? = some u) :
    value l ≠ .nan ∧ value u ≠ .nan := by
  have hmem : (l, u) ∈ p.lower.zip p.upper := by
    refine List.mem_of_getElem? (i := k) ?_
    rw [List.zip, List.getElem?_zipWith, hl, hu]
  have hgood := h.bounds _ hmem
  rw [badBounds, Bool.or_eq_false_iff, Bool.or_eq_false_iff] at hgood
  exact ⟨isNaN_eq_false.1 hgood.1.1, isNaN_eq_false.1 hgood.1.2⟩

theorem not_between_iff {v l u : α} (hl : value l ≠ .nan) (hu : value u ≠ .nan) :
    ¬ (le l v = true ∧ le v u = true) ↔ isNaN v = true ∨ lt v l = true ∨ lt u v = true := by
  by_cases hv : value v = .nan
  · simp [le, isNaN, hv]
  · simp [le, lt, isNaN, hv, Extended.lt_eq_not_le hv hl, Extended.lt_eq_not_le hu hv, -not_and,
      not_and_or]

theorem FrameValid.excludes_iff (h : p.FrameValid) : p.Excludes x ↔ ¬ p.Encloses x := by
  constructor
  · rintro ⟨k, v, l, u, hv, hl, hu, hout⟩ hin
    obtain ⟨hlower, hupper⟩ := h.number_bounds hl hu
    exact (not_between_iff hlower hupper).2 hout (hin k v l u hv hl hu)
  · intro hout
    simp only [Encloses, Between, not_forall] at hout
    obtain ⟨k, v, l, u, hv, hl, hu, hout⟩ := hout
    obtain ⟨hlower, hupper⟩ := h.number_bounds hl hu
    exact ⟨k, v, l, u, hv, hl, hu, (not_between_iff hlower hupper).1 hout⟩

end Problem

namespace Binding

variable {B : Backend α} {b : Binding B}

theorem Aligned.firstOutside?_cases (h : b.Aligned) (hx : x.length = b.problem.columns) :
    firstOutside? 0 x b.problem.lower b.problem.upper = some none ∧ b.problem.Encloses x ∨
      (∃ k, firstOutside? 0 x b.problem.lower b.problem.upper = some (some k)) ∧
        b.problem.Excludes x := by
  rw [h.frame.excludes_iff]
  exact Binding.firstOutside?_cases (h.frame.lower.trans hx.symm) (h.frame.upper.trans hx.symm)

theorem isFeasible_of_excludes (h : b.Aligned) (hx : x.length = b.problem.columns)
    (hout : b.problem.Excludes x) :
    ∃ k, isFeasible x b = ⟨.ok false, b, [.outsideBounds b.name k]⟩ := by
  obtain ⟨-, hin⟩ | ⟨⟨k, hk⟩, -⟩ := h.firstOutside?_cases hx
  · exact absurd hin (h.frame.excludes_iff.1 hout)
  · refine ⟨k, ?_⟩
    rw [isFeasible, Call.bind_of_ok (checkLength_apply _ hx), Call.state_bind, hk]
    rfl

theorem isFeasible_of_encloses (h : b.Aligned) (hx : x.length = b.problem.columns)
    (hin : b.problem.Encloses x) :
    let m := b.session.model.withBounds x x
    (isFeasible x b).result = (b.session.found m).map (B.hasPoint ·.code) ∧
      (isFeasible x b).events.foldl noteRun [] = (if b.isClosed then [] else [m]) ∧
      (isFeasible x b).state.session.memory =
        if b.isClosed then b.session.memory else (B.run m b.session.memory).2 := by
  intro m
  obtain ⟨ho, -⟩ | ⟨-, hout⟩ := h.firstOutside?_cases hx
  · have hl : b.session.model.lower.length = x.length := by rw [h.lower_length, hx]
    have hu : b.session.model.upper.length = x.length := by rw [h.upper_length, hx]
    obtain ⟨hlower, hupper⟩ := h.stored_bounds
    obtain ⟨hresult, hruns, hmemory⟩ :=
      Session.fixedRun_runsOnce b.session b.name hl hu hlower hupper
    have hcall : isFeasible x b = (do
        let code ← onSession (Call.thenAlways (Session.pinnedRun b.name x)
          (setAllBounds (b.problem.lower.zip b.problem.upper)))
        return B.hasPoint code) b := by
      rw [isFeasible, Call.bind_of_ok (checkLength_apply _ hx), Call.state_bind, ho]
      rfl
    rw [hcall, Call.bind_pure_apply]
    refine ⟨?_, hruns, hmemory⟩
    simp only [result_onSession, hresult]
    cases b.session.found m <;> rfl
  · exact absurd hin (h.frame.excludes_iff.1 hout)

end Binding

end LinProg
