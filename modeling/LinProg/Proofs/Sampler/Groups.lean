import LinProg.Proofs.Place
import LinProg.Sampler.Walk

/-!
Groups of linked columns. The groups are applied one after another, each to what the groups before
it left, so a column ends with the component that some column was drawn.
-/

namespace LinProg.Sampler

variable {α : Type}

/-- The column whose component a group gives to a column. -/
def leader : List Nat → Nat → Nat
  | [], k => k
  | first :: rest, k => if k ∈ rest then first else k

/-- The column whose draw a column ends with, found from the last group to the first. -/
def source (groups : List (List Nat)) (k : Nat) : Nat :=
  groups.foldr leader k

theorem leader_of_notMem {g : List Nat} {k : Nat} (h : k ∉ g.tail) : leader g k = k := by
  cases g with
  | nil => rfl
  | cons first rest => exact if_neg h

theorem leader_of_mem {g : List Nat} {k : Nat} (h : k ∈ g) : leader g k = g.headD k := by
  cases g with
  | nil => rfl
  | cons first rest =>
    rw [leader]
    split
    · rfl
    · rename_i hrest
      exact (List.mem_cons.1 h).resolve_right hrest

theorem leader_cases (g : List Nat) (k : Nat) : leader g k = k ∨ leader g k ∈ g := by
  cases g with
  | nil => exact .inl rfl
  | cons first rest =>
    rw [leader]
    split
    · exact .inr List.mem_cons_self
    · exact .inl rfl

theorem source_of_notMem {groups : List (List Nat)} {k : Nat} (h : ∀ g ∈ groups, k ∉ g.tail) :
    source groups k = k := by
  induction groups with
  | nil => rfl
  | cons g groups ih =>
    obtain ⟨hg, hgroups⟩ := List.forall_mem_cons.1 h
    change leader g (source groups k) = k
    rw [ih hgroups, leader_of_notMem hg]

theorem source_lt {groups : List (List Nat)} {n k : Nat} (h : ∀ i ∈ groups.flatten, i < n)
    (hk : k < n) : source groups k < n := by
  induction groups with
  | nil => exact hk
  | cons g groups ih =>
    rw [List.flatten_cons, List.forall_mem_append] at h
    change leader g (source groups k) < n
    obtain heq | hmem := leader_cases g (source groups k)
    · rw [heq]
      exact ih h.2
    · exact h.1 _ hmem

theorem headD_mem {g : List Nat} {k : Nat} (h : k ∈ g) : g.headD k ∈ g := by
  cases g with
  | nil => exact h
  | cons first rest => exact List.mem_cons_self

theorem foldlM_place?_const {rest : List Nat} {d : List α} {v : α} (h : ∀ i ∈ rest, i < d.length) :
    ∃ d', rest.foldlM (fun d i => place? d i v) d = some d' ∧ d'.length = d.length ∧
      ∀ k, d'[k]? = if k ∈ rest then some v else d[k]? := by
  induction rest generalizing d with
  | nil => exact ⟨d, rfl, rfl, by simp⟩
  | cons i rest ih =>
    obtain ⟨hi, hrest⟩ := List.forall_mem_cons.1 h
    obtain ⟨d', hd', hlength, hget⟩ := ih (d := d.set i v) (by simpa using hrest)
    refine ⟨d', ?_, by simpa using hlength, fun k => ?_⟩
    · rw [List.foldlM_cons, place?_of_lt hi]
      exact hd'
    · rw [hget, List.getElem?_set]
      by_cases hk : k ∈ rest
      · simp [hk]
      · by_cases hki : i = k
        · subst hki
          simp [hi]
        · simp [hk, hki, Ne.symm hki]

theorem link?_leader {g : List Nat} {d : List α} (h : ∀ i ∈ g, i < d.length) :
    ∃ d', link? d g = some d' ∧ d'.length = d.length ∧ ∀ k, d'[k]? = d[leader g k]? := by
  cases g with
  | nil => exact ⟨d, rfl, rfl, fun _ => rfl⟩
  | cons first rest =>
    obtain ⟨hfirst, hrest⟩ := List.forall_mem_cons.1 h
    have hvalue : d[first]? = some d[first] := List.getElem?_eq_getElem hfirst
    obtain ⟨d', hd', hlength, hget⟩ := foldlM_place?_const (v := d[first]) hrest
    refine ⟨d', ?_, hlength, fun k => ?_⟩
    · rw [link?, hvalue]
      exact hd'
    · rw [hget, leader]
      split
      · exact hvalue.symm
      · rfl

theorem foldlM_link? {groups : List (List Nat)} {d : List α}
    (h : ∀ i ∈ groups.flatten, i < d.length) :
    ∃ d', groups.foldlM link? d = some d' ∧ d'.length = d.length ∧
      ∀ k, d'[k]? = d[source groups k]? := by
  induction groups generalizing d with
  | nil => exact ⟨d, rfl, rfl, fun _ => rfl⟩
  | cons g groups ih =>
    rw [List.flatten_cons, List.forall_mem_append] at h
    obtain ⟨d', hd', hlength, hget⟩ := link?_leader h.1
    obtain ⟨d'', hd'', hlength', hget'⟩ := ih (d := d') (by simpa [hlength] using h.2)
    refine ⟨d'', ?_, hlength'.trans hlength, fun k => ?_⟩
    · rw [List.foldlM_cons, hd']
      exact hd''
    · rw [hget', hget]
      rfl

end LinProg.Sampler
