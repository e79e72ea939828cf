import LinProg.Proofs.Scalar.Lawful
import LinProg.Proofs.Text.Words
import LinProg.Text.Numeral

namespace LinProg

open Scalar

/-- Numerals from which the numbers can be told. A signed one never looks like the zero that stands
for an empty sum. -/
class LawfulNumeral (α : Type) [Scalar α] [Numeral α] : Prop extends LawfulScalar α where
  plain_injective : Function.Injective (Numeral.plain : α → String)
  signed_injective : Function.Injective (Numeral.signed : α → String)
  isWord_plain (a : α) : Text.IsWord (Numeral.plain a)
  isWord_signed (a : α) : Text.IsWord (Numeral.signed a)
  plain_negInf : Numeral.plain (negInf : α) = "-inf"
  signed_ne_zero (a : α) : Numeral.signed a ≠ "0"
  eq_of_infinite {a b : α} : isFinite a = false → value a = value b → a = b

namespace Text

theorem isWord_repr (n : Nat) : IsWord n.repr := by
  intro c hc
  rw [Nat.toList_repr] at hc
  have hdigit := Nat.isDigit_of_mem_toDigits (by decide) (by decide) hc
  exact isBlank_of_isAlphanum (by simp [Char.isAlphanum, hdigit])

theorem columnName_eq (c : Nat) : columnName c = "x" ++ c.repr := rfl

theorem columnName_injective : Function.Injective columnName := by
  intro i j h
  have hdigits : Nat.toDigits 10 i = Nat.toDigits 10 j := by
    simpa [columnName_eq, ← String.toList_inj] using h
  rw [← Nat.ofDigitChars_ten_toDigits (n := i), hdigits, Nat.ofDigitChars_ten_toDigits]

theorem isWord_columnName (c : Nat) : IsWord (columnName c) :=
  IsWord.append (by decide) (isWord_repr c)

theorem columnName_ne {w : String} (h : w.toList.head? ≠ some 'x') (c : Nat) :
    columnName c ≠ w := by
  rintro rfl
  simp [columnName_eq] at h

variable {α : Type} [Numeral α]

def termWords (term : Nat × α) : List String :=
  [Numeral.signed term.2, columnName term.1]

def sumWords (terms : List (Nat × α)) : List String :=
  match terms with
  | [] => ["0", columnName 0]
  | terms => terms.flatMap termWords

theorem termText_eq (t : Nat × α) : termText t = " ".intercalate (termWords t) := by
  rw [termWords, String.intercalate_cons_cons, String.intercalate_singleton]
  rfl

theorem intercalate_termText (terms : List (Nat × α)) :
    " ".intercalate (terms.map termText) = " ".intercalate (terms.flatMap termWords) := by
  induction terms with
  | nil => rfl
  | cons t terms ih =>
    cases terms with
    | nil => simpa using termText_eq t
    | cons u terms =>
      have ht : termWords t ≠ [] := by simp [termWords]
      have hterms : (u :: terms).flatMap termWords ≠ [] := by simp [termWords]
      have hsplit : (t :: u :: terms).flatMap termWords =
          termWords t ++ (u :: terms).flatMap termWords := rfl
      rw [List.map_cons, List.map_cons, String.intercalate_cons_cons, ← List.map_cons, ih,
        termText_eq, hsplit, String.intercalate_append_of_ne_nil ht hterms]

theorem sumText_eq (terms : List (Nat × α)) :
    sumText terms = " ".intercalate (sumWords terms) := by
  cases terms with
  | nil => rfl
  | cons t terms => exact intercalate_termText (t :: terms)

theorem exists_sumWords (terms : List (Nat × α)) :
    ∃ w c rest, sumWords terms = w :: columnName c :: rest := by
  cases terms with
  | nil => exact ⟨_, _, _, rfl⟩
  | cons t terms => exact ⟨_, _, _, rfl⟩

variable [Scalar α] [LawfulNumeral α]

theorem isWord_of_mem_sumWords {terms : List (Nat × α)} :
    ∀ w ∈ sumWords terms, IsWord w := by
  cases terms with
  | nil => simpa [sumWords] using ⟨by decide, isWord_columnName 0⟩
  | cons t terms =>
    intro w hw
    obtain ⟨u, -, hu⟩ := List.mem_flatMap.1 hw
    simp only [termWords, List.mem_cons, List.not_mem_nil, or_false] at hu
    obtain rfl | rfl := hu
    · exact LawfulNumeral.isWord_signed u.2
    · exact isWord_columnName u.1

theorem termWords_injective : Function.Injective (termWords : Nat × α → List String) := by
  rintro ⟨c, v⟩ ⟨c', v'⟩ h
  simp only [termWords, List.cons.injEq, and_true] at h
  rw [LawfulNumeral.signed_injective h.1, columnName_injective h.2]

theorem flatMap_termWords_injective :
    Function.Injective fun terms : List (Nat × α) => terms.flatMap termWords := by
  intro terms terms' h
  induction terms generalizing terms' with
  | nil =>
    cases terms' with
    | nil => rfl
    | cons t' terms' => simp [termWords] at h
  | cons t terms ih =>
    cases terms' with
    | nil => simp [termWords] at h
    | cons t' terms' =>
      obtain ⟨ht, hterms⟩ := List.append_inj h rfl
      rw [termWords_injective ht, ih hterms]

theorem sumWords_injective : Function.Injective (sumWords : List (Nat × α) → List String) := by
  intro terms terms' h
  cases terms with
  | nil =>
    cases terms' with
    | nil => rfl
    | cons t' terms' => exact absurd (List.cons.inj h).1.symm (LawfulNumeral.signed_ne_zero t'.2)
  | cons t terms =>
    cases terms' with
    | nil => exact absurd (List.cons.inj h).1 (LawfulNumeral.signed_ne_zero t.2)
    | cons t' terms' => exact flatMap_termWords_injective h

end Text

end LinProg
