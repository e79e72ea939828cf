import LinProg.Call
import Mathlib.Data.List.Basic

namespace LinProg

variable {α β γ : Type}

theorem place?_of_lt {xs : List α} {i : Nat} (h : i < xs.length) (x : α) :
    place? xs i x = some (xs.set i x) := by
  simp [place?, h]

theorem foldlM_place? (index : β → Nat) (value : β → α) {ws : List β} {xs : List α}
    (h : ∀ w ∈ ws, index w < xs.length) :
    ∃ ys, ws.foldlM (fun xs w => place? xs (index w) (value w)) xs = some ys ∧
      ys.length = xs.length := by
  induction ws generalizing xs with
  | nil => exact ⟨xs, rfl, rfl⟩
  | cons w ws ih =>
    obtain ⟨hw, hws⟩ := List.forall_mem_cons.1 h
    have hset : ∀ v ∈ ws, index v < (xs.set (index w) (value w)).length := by simpa using hws
    obtain ⟨ys, hys, hlength⟩ := ih hset
    refine ⟨ys, ?_, hlength.trans List.length_set⟩
    rw [List.foldlM_cons, place?_of_lt hw]
    exact hys

theorem less?_succ_one (n : Nat) : less? (n + 1) 1 = some n :=
  less?_of_le (Nat.le_add_left 1 n)

theorem take_succ_set {xs : List α} {i : Nat} (h : i < xs.length) (x : α) :
    (xs.set i x).take (i + 1) = xs.take i ++ [x] := by
  rw [List.take_add_one, List.take_set_of_le (Nat.le_refl i), List.getElem?_set_self h]
  rfl

theorem map_modify {f : α → α} {g : β → β} {p : α → β} (h : ∀ x, p (f x) = g (p x))
    (xs : List α) (i : Nat) : (xs.modify i f).map p = (xs.map p).modify i g := by
  induction xs generalizing i with
  | nil => simp
  | cons x xs ih => cases i <;> simp [h, ih]

theorem map_modify_eq {f : α → α} {p : α → β} (h : ∀ x, p (f x) = p x) (xs : List α) (i : Nat) :
    (xs.modify i f).map p = xs.map p := by
  rw [map_modify (g := id) h, List.modify_id]

theorem modify_const (xs : List α) (i : Nat) (x : α) : xs.modify i (fun _ => x) = xs.set i x := by
  induction xs generalizing i with
  | nil => simp
  | cons y ys ih => cases i <;> simp [ih]

theorem set_getElem_eq_modify {xs : List α} {i : Nat} (h : i < xs.length) (f : α → α) :
    xs.set i (f xs[i]) = xs.modify i f := by
  rw [List.modify_eq_set_get f h]
  rfl

theorem forall_mem_iff_places {P : α → Prop} {xs : List α} :
    (∀ x ∈ xs, P x) ↔ ∀ i < xs.length, ∃ x, xs[i]? = some x ∧ P x := by
  rw [List.forall_mem_iff_forall_getElem]
  refine forall₂_congr fun i hi => ?_
  simp [hi]

theorem forall_mem_modify {P : α → Prop} {f : α → α} {xs : List α} (h : ∀ x ∈ xs, P x)
    (hf : ∀ x, P x → P (f x)) (i : Nat) : ∀ x ∈ xs.modify i f, P x := by
  induction xs generalizing i with
  | nil => simp
  | cons x xs ih =>
    obtain ⟨hx, hxs⟩ := List.forall_mem_cons.1 h
    cases i with
    | zero => simpa using ⟨hf x hx, hxs⟩
    | succ i => simpa using ⟨hx, ih hxs i⟩

theorem modify_append_cons (xs : List α) (y : α) (ys : List α) (f : α → α) :
    (xs ++ y :: ys).modify xs.length f = xs ++ f y :: ys := by
  induction xs with
  | nil => simp
  | cons x xs ih => simpa using ih

/-- A pass over the places behind `xs` changes each of them by its own change. -/
theorem foldl_modify_zipIdx (f : β → α → α) (xs : List α) {ys : List α} {ws : List β}
    (h : ws.length = ys.length) :
    (ws.zipIdx xs.length).foldl (fun zs w => zs.modify w.2 (f w.1)) (xs ++ ys) =
      xs ++ ws.zipWith f ys := by
  induction ws generalizing xs ys with
  | nil =>
    obtain rfl : ys = [] := by simpa using h.symm
    rfl
  | cons w ws ih =>
    cases ys with
    | nil => simp at h
    | cons y ys =>
      have hrest := ih (xs ++ [f w y]) (Nat.succ.inj h)
      rw [List.zipIdx_cons, List.foldl_cons, modify_append_cons]
      simpa using hrest

theorem find?_zipIdx_eq_none {f : α → Bool} {xs : List α} {n : Nat} :
    (xs.zipIdx n).find? (f ·.1) = none ↔ ∀ x ∈ xs, f x = false := by
  rw [List.find?_eq_none]
  constructor
  · intro h x hx
    rw [← List.zipIdx_map_fst n xs] at hx
    obtain ⟨t, ht, rfl⟩ := List.mem_map.1 hx
    simpa using h t ht
  · intro h t ht
    simpa using h t.1 (List.fst_mem_of_mem_zipIdx ht)

theorem mapM_zipIdx_eq_some {f : α × Nat → Option β} {xs : List α} {ys : List β} (n : Nat)
    (hl : xs.length = ys.length)
    (h : ∀ i x y, xs[i]? = some x → ys[i]? = some y → f (x, n + i) = some y) :
    (xs.zipIdx n).mapM f = some ys := by
  induction xs generalizing n ys with
  | nil =>
    obtain rfl : ys = [] := by simpa using hl.symm
    rfl
  | cons x xs ih =>
    cases ys with
    | nil => simp at hl
    | cons y ys =>
      have hx : f (x, n) = some y := h 0 x y rfl rfl
      have hxs : (xs.zipIdx (n + 1)).mapM f = some ys := by
        apply ih (n + 1) (Nat.succ.inj hl)
        intro i x' y' hx' hy'
        rw [Nat.add_assoc, Nat.add_comm 1 i]
        exact h (i + 1) x' y' hx' hy'
      simp [List.zipIdx_cons, List.mapM_cons, hx, hxs]

/-- What is read off the answers of a pass, when it is known of each member that has one. -/
theorem map_of_mapM {f : α → Option β} {g : α → γ} {r : β → γ}
    (h : ∀ x y, f x = some y → r y = g x) {xs : List α} {ys : List β}
    (hys : xs.mapM f = some ys) : ys.map r = xs.map g := by
  induction xs generalizing ys with
  | nil =>
    obtain rfl : [] = ys := by simpa using hys
    rfl
  | cons x xs ih =>
    simp only [List.mapM_cons, Option.bind_eq_bind, Option.bind_eq_some_iff, Option.pure_def,
      Option.some.injEq] at hys
    obtain ⟨y, hy, ys, hys, rfl⟩ := hys
    simp [h x y hy, ih hys]

theorem mapM_eq_map {f : α → Option β} {g : α → β} (h : ∀ x y, f x = some y → y = g x)
    {xs : List α} {ys : List β} (hys : xs.mapM f = some ys) : ys = xs.map g := by
  simpa using map_of_mapM (r := id) h hys

theorem length_of_mapM {f : α → Option β} {xs : List α} {ys : List β}
    (hys : xs.mapM f = some ys) : ys.length = xs.length := by
  have hunits : ys.map (fun _ => ()) = xs.map fun _ => () := map_of_mapM (fun _ _ _ => rfl) hys
  simpa using congrArg List.length hunits

theorem getElem?_of_mapM {f : α → Option β} {xs : List α} {ys : List β}
    (h : xs.mapM f = some ys) (i : Nat) : ys[i]? = xs[i]?.bind f := by
  induction xs generalizing ys i with
  | nil =>
    obtain rfl : [] = ys := by simpa using h
    rfl
  | cons x xs ih =>
    simp only [List.mapM_cons, Option.bind_eq_bind, Option.bind_eq_some_iff, Option.pure_def,
      Option.some.injEq] at h
    obtain ⟨y, hy, ys, hys, rfl⟩ := h
    cases i with
    | zero => simp [hy]
    | succ i => simpa using ih hys i

theorem mapM_eq_some_map {f : α → Option β} {g : α → β} {xs : List α}
    (h : ∀ x ∈ xs, f x = some (g x)) : xs.mapM f = some (xs.map g) := by
  induction xs with
  | nil => rfl
  | cons x xs ih =>
    obtain ⟨hx, hxs⟩ := List.forall_mem_cons.1 h
    simp [List.mapM_cons, hx, ih hxs]

theorem isSome_mapM {f : α → Option β} {xs : List α} :
    (xs.mapM f).isSome ↔ ∀ x ∈ xs, (f x).isSome := by
  induction xs with
  | nil => simp
  | cons x xs ih =>
    rw [List.forall_mem_cons, ← ih, List.mapM_cons]
    cases f x <;> cases xs.mapM f <;> simp

theorem forall_snd_zipIdx {xs : List α} {n : Nat} :
    (∀ t ∈ xs.zipIdx, t.2 < n) ↔ xs.length ≤ n := by
  constructor
  · intro h
    by_contra hlt
    have hn : n < xs.length := Nat.lt_of_not_le hlt
    have hmem : (xs[n], n) ∈ xs.zipIdx := List.mk_mem_zipIdx_iff_getElem?.2 (by simp [hn])
    exact Nat.lt_irrefl n (h _ hmem)
  · intro h t ht
    have hlt := List.snd_lt_of_mem_zipIdx ht
    omega

end LinProg
