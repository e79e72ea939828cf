import LinProg.Call

/-!
The members of a list that are chosen by flags, in their order. A chosen member has, among the
chosen, as many before it as there are flags set before its own.
-/

namespace LinProg

variable {α β : Type}

def chosen : List Bool → List α → List α
  | true :: flags, x :: xs => x :: chosen flags xs
  | false :: flags, _ :: xs => chosen flags xs
  | _, _ => []

@[simp] theorem chosen_nil (flags : List Bool) : chosen flags ([] : List α) = [] := by
  cases flags with
  | nil => rfl
  | cons f flags => cases f <;> rfl

theorem mem_of_mem_chosen {flags : List Bool} {xs : List α} {x : α} (h : x ∈ chosen flags xs) :
    x ∈ xs := by
  induction flags generalizing xs with
  | nil => simp [chosen] at h
  | cons f flags ih =>
    cases xs with
    | nil => simp at h
    | cons y xs =>
      cases f with
      | true =>
        obtain rfl | h := List.mem_cons.1 h
        · simp
        · exact List.mem_cons_of_mem y (ih h)
      | false => exact List.mem_cons_of_mem y (ih h)

theorem length_chosen {flags : List Bool} {xs : List α} (h : flags.length = xs.length) :
    (chosen flags xs).length = flags.count true := by
  induction flags generalizing xs with
  | nil => rfl
  | cons f flags ih =>
    cases xs with
    | nil => simp at h
    | cons x xs => cases f <;> simp [chosen, ih (Nat.succ.inj h)]

theorem chosen_replicate (xs : List α) : chosen (List.replicate xs.length true) xs = xs := by
  induction xs with
  | nil => rfl
  | cons x xs ih => simp [List.replicate_succ, chosen, ih]

theorem chosen_append {flags : List Bool} {xs : List α} (h : flags.length = xs.length)
    (flags' : List Bool) (xs' : List α) :
    chosen (flags ++ flags') (xs ++ xs') = chosen flags xs ++ chosen flags' xs' := by
  induction flags generalizing xs with
  | nil =>
    cases xs with
    | nil => rfl
    | cons x xs => simp at h
  | cons f flags ih =>
    cases xs with
    | nil => simp at h
    | cons x xs => cases f <;> simp [chosen, ih (Nat.succ.inj h)]

theorem chosen_take {flags : List Bool} {xs : List α} (h : flags.length = xs.length) (n : Nat) :
    chosen (flags.take n) (xs.take n) = (chosen flags xs).take ((flags.take n).count true) := by
  induction n generalizing flags xs with
  | zero => simp
  | succ n ih =>
    cases flags with
    | nil => simp [chosen]
    | cons f flags =>
      cases xs with
      | nil => simp
      | cons x xs => cases f <;> simp [chosen, ih (Nat.succ.inj h)]

theorem chosen_modify_of_true {flags : List Bool} {i : Nat} (h : flags[i]? = some true)
    (xs : List α) (f : α → α) :
    chosen flags (xs.modify i f) = (chosen flags xs).modify ((flags.take i).count true) f := by
  induction i generalizing flags xs with
  | zero =>
    cases flags with
    | nil => simp at h
    | cons b flags =>
      obtain rfl : b = true := by simpa using h
      cases xs <;> simp [chosen]
  | succ i ih =>
    cases flags with
    | nil => simp at h
    | cons b flags =>
      cases xs with
      | nil => simp
      | cons x xs => cases b <;> simp [chosen, ih (by simpa using h)]

theorem chosen_modify_of_false {flags : List Bool} {i : Nat} (h : flags[i]? = some false)
    (xs : List α) (f : α → α) : chosen flags (xs.modify i f) = chosen flags xs := by
  induction i generalizing flags xs with
  | zero =>
    cases flags with
    | nil => simp at h
    | cons b flags =>
      obtain rfl : b = false := by simpa using h
      cases xs <;> simp [chosen]
  | succ i ih =>
    cases flags with
    | nil => simp at h
    | cons b flags =>
      cases xs with
      | nil => simp
      | cons x xs => cases b <;> simp [chosen, ih (by simpa using h)]

theorem count_take_of_count_eq_length {flags : List Bool} (h : flags.count true = flags.length)
    {i : Nat} (hi : i ≤ flags.length) : (flags.take i).count true = i := by
  have hall : ∀ b ∈ flags, true = b := List.count_eq_length.1 h
  have : (flags.take i).count true = (flags.take i).length :=
    List.count_eq_length.2 fun b hb => hall b (List.mem_of_mem_take hb)
  rw [this, List.length_take, Nat.min_eq_left hi]

theorem count_take_lt {flags : List Bool} {i : Nat} (h : flags[i]? = some true) :
    (flags.take i).count true < flags.count true := by
  obtain ⟨hi, hx⟩ := List.getElem?_eq_some_iff.1 h
  calc (flags.take i).count true < (flags.take (i + 1)).count true := by
        simp [List.take_add_one, h]
    _ ≤ flags.count true := (List.take_sublist _ _).count_le _

end LinProg
