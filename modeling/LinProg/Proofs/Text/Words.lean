import LinProg.Text.Character

/-!
Lines of words. Words have no blanks in them, so a text that is made of lines of words can be taken
apart in one way only.
-/

namespace LinProg

/-- What a list is up to its first item without a property, that item, and the rest. -/
theorem eq_of_append_cons {β : Type} {P : β → Prop} {xs xs' rest rest' : List β} {y y' : β}
    (hxs : ∀ x ∈ xs, P x) (hxs' : ∀ x ∈ xs', P x) (hy : ¬ P y) (hy' : ¬ P y')
    (h : xs ++ y :: rest = xs' ++ y' :: rest') : xs = xs' ∧ y = y' ∧ rest = rest' := by
  induction xs generalizing xs' with
  | nil =>
    cases xs' with
    | nil => simpa using h
    | cons x' xs' =>
      obtain ⟨rfl, -⟩ := List.cons.inj h
      exact absurd (hxs' y List.mem_cons_self) hy
  | cons x xs ih =>
    cases xs' with
    | nil =>
      obtain ⟨rfl, -⟩ := List.cons.inj h
      exact absurd (hxs x List.mem_cons_self) hy'
    | cons x' xs' =>
      obtain ⟨rfl, htail⟩ := List.cons.inj h
      obtain ⟨rfl, hrest⟩ :=
        ih (fun z hz => hxs z (.tail _ hz)) (fun z hz => hxs' z (.tail _ hz)) htail
      exact ⟨rfl, hrest⟩

theorem eq_of_append {β : Type} {P : β → Prop} {xs xs' ys ys' : List β} (hxs : ∀ x ∈ xs, P x)
    (hxs' : ∀ x ∈ xs', P x) (hys : ∀ y ∈ ys, ¬ P y) (hys' : ∀ y ∈ ys', ¬ P y)
    (h : xs ++ ys = xs' ++ ys') : xs = xs' ∧ ys = ys' := by
  cases ys with
  | nil =>
    cases ys' with
    | nil => simpa using h
    | cons y' ys' =>
      have hmem : y' ∈ xs := by
        rw [List.append_nil] at h
        simp [h]
      exact absurd (hxs y' hmem) (hys' y' List.mem_cons_self)
  | cons y ys =>
    cases ys' with
    | nil =>
      have hmem : y ∈ xs' := by
        rw [List.append_nil] at h
        simp [← h]
      exact absurd (hxs' y hmem) (hys y List.mem_cons_self)
    | cons y' ys' =>
      obtain ⟨rfl, rfl, rfl⟩ := eq_of_append_cons hxs hxs' (hys y List.mem_cons_self)
        (hys' y' List.mem_cons_self) h
      exact ⟨rfl, rfl⟩

namespace Text

theorem isBlank_of_isAlphanum {c : Char} (h : c.isAlphanum = true) : isBlank c = false := by
  have hranges : ((decide (65 ≤ c.val ∧ c.val ≤ 90) ||
      decide (97 ≤ c.val) && decide (c.val ≤ 122)) ||
        decide (48 ≤ c.val) && decide (c.val ≤ 57)) = true := h
  have hc : (65 ≤ c.toNat ∧ c.toNat ≤ 90 ∨ 97 ≤ c.toNat ∧ c.toNat ≤ 122) ∨
      48 ≤ c.toNat ∧ c.toNat ≤ 57 := by
    simpa [UInt32.le_iff_toNat_le] using hranges
  simp only [isBlank, Bool.or_eq_false_iff, Bool.and_eq_false_iff, decide_eq_false_iff_not,
    beq_eq_false_iff_ne]
  omega

def IsWord (w : String) : Prop :=
  ∀ c ∈ w.toList, isBlank c = false

instance (w : String) : Decidable (IsWord w) :=
  List.decidableBAll (isBlank · = false) w.toList

/-- An indented line begins with the empty word. -/
def IsLine (words : List String) : Prop :=
  words ≠ [] ∧ ∀ w ∈ words, IsWord w

instance (words : List String) : Decidable (IsLine words) :=
  have : Decidable (∀ w ∈ words, IsWord w) := List.decidableBAll IsWord words
  inferInstanceAs (Decidable (_ ∧ _))

def line (words : List String) : String :=
  " ".intercalate words ++ "\n"

theorem isLine_cons {w : String} {words : List String} :
    IsLine (w :: words) ↔ IsWord w ∧ ∀ v ∈ words, IsWord v := by
  simp [IsLine]

theorem IsWord.append {v w : String} (hv : IsWord v) (hw : IsWord w) : IsWord (v ++ w) := by
  intro c hc
  rw [String.toList_append, List.mem_append] at hc
  exact hc.elim (hv c) (hw c)

theorem IsWord.notMem {w : String} (h : IsWord w) {c : Char} (hc : isBlank c = true) :
    c ∉ w.toList :=
  fun hmem => by simp [h c hmem] at hc

theorem intercalate_inj {words words' : List String} (h : IsLine words) (h' : IsLine words')
    (heq : " ".intercalate words = " ".intercalate words') : words = words' := by
  have hsplit {words : List String} (h : IsLine words) :
      (" ".intercalate words).toList.splitOn ' ' = words.map String.toList := by
    rw [String.toList_intercalate]
    refine List.splitOn_intercalate ' ' ?_ (by simpa using h.1)
    simpa using fun w hw => (h.2 w hw).notMem (c := ' ') rfl
  have hlists := hsplit h
  rw [heq, hsplit h'] at hlists
  exact (List.map_inj_right fun _ _ => String.toList_inj.1).1 hlists.symm

theorem newline_notMem {words : List String} (h : ∀ w ∈ words, IsWord w) :
    '\n' ∉ (" ".intercalate words).toList := by
  induction words with
  | nil => simp
  | cons w words ih =>
    obtain ⟨hw, hwords⟩ := List.forall_mem_cons.1 h
    cases words with
    | nil => simpa using hw.notMem (c := '\n') rfl
    | cons v words =>
      rw [String.intercalate_cons_cons]
      simp only [String.toList_append, List.mem_append, not_or]
      exact ⟨⟨hw.notMem rfl, by decide⟩, ih hwords⟩

theorem lines_inj {ls ls' : List (List String)} (h : ∀ l ∈ ls, IsLine l) (h' : ∀ l ∈ ls', IsLine l)
    (heq : String.join (ls.map line) = String.join (ls'.map line)) : ls = ls' := by
  induction ls generalizing ls' with
  | nil =>
    cases ls' with
    | nil => rfl
    | cons l' ls' => simp [line, ← String.toList_inj] at heq
  | cons l ls ih =>
    cases ls' with
    | nil => simp [line, ← String.toList_inj] at heq
    | cons l' ls' =>
      obtain ⟨hl, hls⟩ := List.forall_mem_cons.1 h
      obtain ⟨hl', hls'⟩ := List.forall_mem_cons.1 h'
      have hfirst {words : List String} (h : IsLine words) (c : Char)
          (hc : c ∈ (" ".intercalate words).toList) : c ≠ '\n' :=
        fun heq => newline_notMem h.2 (heq ▸ hc)
      have hlists : (" ".intercalate l).toList ++ '\n' :: (String.join (ls.map line)).toList =
          (" ".intercalate l').toList ++ '\n' :: (String.join (ls'.map line)).toList := by
        simpa [line, ← String.toList_inj] using heq
      obtain ⟨hwords, -, hrest⟩ :=
        eq_of_append_cons (P := (· ≠ '\n')) (hfirst hl) (hfirst hl') (by simp) (by simp) hlists
      rw [intercalate_inj hl hl' (String.toList_inj.1 hwords),
        ih hls hls' (String.toList_inj.1 hrest)]

end Text

end LinProg
