import LinProg.Engine.Exact
import LinProg.Proofs.Binding.Solution

/-!
The answers of the exact engines. Branching changes the ranges of columns and nothing else, so a
solution that is found in some part has a value for each column of the whole program, and an integer
where the column asks for one.
-/

namespace LinProg.Engine

namespace Program

variable {p : Program} {tolerance : Rat} {values : List Rat}

def integers (p : Program) : List Bool :=
  p.columns.map (·.integer)

@[simp] theorem integers_withRange (column : Nat) (range : Range) :
    (p.withRange column range).integers = p.integers :=
  map_modify_eq (f := fun c : ProgramColumn => { c with range }) (p := ProgramColumn.integer)
    (fun _ => rfl) p.columns column

structure Fits (integers : List Bool) (values : List Rat) : Prop where
  length : values.length = integers.length
  whole : ∀ t ∈ integers.zip values, t.1 = true → t.2.den = 1

theorem length_of_relaxed (h : p.relaxed = .optimal values) :
    values.length = p.columns.length := by
  rw [relaxed] at h
  split at h
  · cases h
  · split at h
    · cases h
    · cases h
    · split at h
      · cases h
      · cases h
      · cases h
        simp

theorem length_of_relaxedWithin (h : p.relaxedWithin tolerance = .optimal values) :
    values.length = p.columns.length := by
  rw [relaxedWithin] at h
  split at h
  · split at h
    · dsimp only at h
      split at h
      · exact length_of_relaxed (p := p.widen _) h
      · cases h
    · cases h
  · exact length_of_relaxed h

theorem fits_of_broken (hl : values.length = p.columns.length) (h : p.broken? values = none) :
    Fits p.integers values := by
  refine ⟨by simp [integers, hl], fun t ht hinteger => ?_⟩
  rw [integers, List.zip_map_left] at ht
  obtain ⟨⟨c, v⟩, hc, rfl⟩ := List.mem_map.1 ht
  obtain ⟨i, hi⟩ := List.getElem?_of_mem hc
  have hnone := List.findSome?_eq_none_iff.1 h _ (List.mk_mem_zipIdx_iff_getElem?.2 hi)
  by_contra hden
  exact absurd hnone (by simp [show c.integer = true from hinteger, show v.den ≠ 1 from hden])

/-- The best solution so far fits, and the parts that are still open have the columns of the whole
program. -/
theorem fits_of_search {integers : List Bool} {best : Option (Rat × List Rat)}
    {parts : List Program} {nodes : Nat} (hbest : ∀ b ∈ best, Fits integers b.2)
    (hparts : ∀ p ∈ parts, p.integers = integers)
    (h : search tolerance best parts nodes = .optimal values) : Fits integers values := by
  fun_induction search tolerance best parts nodes with
  | case1 nodes objective found =>
    cases h
    exact hbest _ rfl
  | case2 | case3 | case4 | case5 => cases h
  | case6 best p rest nodes hp ih => exact ih hbest (List.forall_mem_cons.1 hparts).2 h
  | case7 best p rest nodes found hp objective hworse ih =>
    exact ih hbest (List.forall_mem_cons.1 hparts).2 h
  | case8 best p rest nodes found hp objective hbetter hwhole ih =>
    obtain ⟨hfirst, hrest⟩ := List.forall_mem_cons.1 hparts
    have hfits : Fits integers found :=
      hfirst ▸ fits_of_broken (length_of_relaxedWithin hp) hwhole
    exact ih (by simpa using hfits) hrest h
  | case9 best p rest nodes found hp objective hbetter column range v hbroken below above ih =>
    obtain ⟨hfirst, hrest⟩ := List.forall_mem_cons.1 hparts
    have hbelow : below.integers = integers := (integers_withRange column _).trans hfirst
    have habove : above.integers = integers := (integers_withRange column _).trans hfirst
    exact ih hbest (List.forall_mem_cons.2 ⟨hbelow, List.forall_mem_cons.2 ⟨habove, hrest⟩⟩) h

theorem fits_of_solve (h : p.solve tolerance = .optimal values) : Fits p.integers values :=
  fits_of_search (by simp) (by simp) h

theorem length_of_solve (h : p.solve tolerance = .optimal values) :
    values.length = p.columns.length := by
  simpa [integers] using (fits_of_solve h).length

end Program

variable {α : Type} [Scalar α]

theorem Defect.bind_eq_ok {β γ : Type} {x : Except Defect β} {f : β → Except Defect γ} {c : γ} :
    (x >>= f) = .ok c ↔ ∃ b, x = .ok b ∧ f b = .ok c := by
  cases x <;> simp [Bind.bind, Except.bind]

theorem Defect.length_of_mapM {β γ : Type} {f : β → Except Defect γ} {xs : List β} {ys : List γ}
    (h : xs.mapM f = .ok ys) : ys.length = xs.length := by
  induction xs generalizing ys with
  | nil =>
    cases h
    rfl
  | cons x xs ih =>
    rw [List.mapM_cons] at h
    obtain ⟨y, -, h⟩ := bind_eq_ok.1 h
    obtain ⟨rest, hrest, h⟩ := bind_eq_ok.1 h
    cases h
    simp [ih hrest]

theorem Program.length_of_made {β γ : Type} {column : β → Except Defect ProgramColumn}
    {row : γ → Except Defect ProgramRow} {columns : List β} {rows : List γ} {p : Program}
    (h : (do return ⟨← columns.mapM column, ← rows.mapM row⟩ : Except Defect Program) = .ok p) :
    p.columns.length = columns.length := by
  obtain ⟨made, hmade, h⟩ := Defect.bind_eq_ok.1 h
  obtain ⟨madeRows, -, h⟩ := Defect.bind_eq_ok.1 h
  cases h
  exact Defect.length_of_mapM hmade

namespace Embedded

theorem onePerColumn : LinProg.Embedded.OnePerColumn (solve (α := α)) := by
  intro input values h
  rw [solve] at h
  split at h
  · cases h
  · cases h
  · rename_i p hp
    split at h
    · rename_i found hfound
      cases h
      rw [List.length_map, Program.length_of_solve hfound, Program.length_of_made hp]
    all_goals cases h

end Embedded

namespace Ranged

omit [Scalar α] in
theorem unboundedCode_ne_optimal (input : LinProg.Ranged.Input α) :
    unboundedCode input ≠ .optimal := by
  rw [unboundedCode]
  split <;> simp

theorem onePerColumn : LinProg.Ranged.OnePerColumn (solve (α := α)) := by
  intro input hcode
  generalize ha : solve input = answer at hcode ⊢
  rw [solve] at ha
  split at ha
  · subst ha
    cases hcode
  · split at ha
    · subst ha
      cases hcode
    · subst ha
      cases hcode
    · rename_i p hp
      split at ha
      · rename_i found hfound
        subst ha
        rw [List.length_map, Program.length_of_solve hfound, Program.length_of_made hp]
      · subst ha
        cases hcode
      · subst ha
        exact absurd hcode (unboundedCode_ne_optimal input)
      · subst ha
        cases hcode

end Ranged

end LinProg.Engine

namespace LinProg

theorem exactEmbedded_points : exactEmbedded.Points fun code => code = .solved :=
  .embedded Engine.Embedded.onePerColumn

theorem exactRanged_points (options : Options) :
    (exactRanged options).Points fun code => code = .optimal :=
  .ranged _ options Engine.Ranged.onePerColumn

end LinProg
