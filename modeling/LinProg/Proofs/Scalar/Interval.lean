import LinProg.Problem.Sense
import Mathlib.Algebra.Order.Ring.Rat
import Mathlib.Tactic.Linarith

namespace LinProg

namespace Extended

protected theorem le_refl {a : Extended} (ha : a ≠ .nan) : a.le a = true := by
  cases a with
  | nan => exact absurd rfl ha
  | fin q => simp
  | negInf | posInf => rfl

theorem ne_nan_of_le {a b : Extended} (h : a.le b = true) : a ≠ .nan ∧ b ≠ .nan := by
  constructor <;> rintro rfl <;> simp at h

protected theorem le_trans {a b c : Extended} (h : a.le b = true) (h' : b.le c = true) :
    a.le c = true := by
  cases b with
  | fin q =>
    cases a with
    | fin p =>
      cases c with
      | fin r =>
        simp only [fin_le_fin, decide_eq_true_eq] at h h' ⊢
        exact le_trans h h'
      | posInf => rfl
      | nan | negInf => cases h'
    | negInf => cases c <;> trivial
    | nan | posInf => cases h
  | negInf => cases a <;> cases c <;> trivial
  | posInf => cases a <;> cases c <;> trivial
  | nan => simp at h

theorem le_fin_of_le {a : Extended} {p q : Rat} (h : a.le (.fin p) = true) (hpq : p ≤ q) :
    a.le (.fin q) = true :=
  Extended.le_trans h (by simpa using hpq)

theorem fin_le_of_le {b : Extended} {p q : Rat} (h : (Extended.fin q).le b = true) (hpq : p ≤ q) :
    (Extended.fin p).le b = true :=
  Extended.le_trans (by simpa using hpq) h

theorem eq_of_same {a b : Extended} (h : a.same b = true) : a = b := by
  cases a <;> cases b <;> simp [same, le] at h ⊢
  exact le_antisymm h.1 h.2

theorem lt_eq_not_le {a b : Extended} (ha : a ≠ .nan) (hb : b ≠ .nan) : a.lt b = !b.le a := by
  cases a with
  | nan => exact absurd rfl ha
  | fin p =>
    cases b with
    | nan => exact absurd rfl hb
    | fin q => rw [fin_lt_fin, fin_le_fin, ← decide_not, decide_eq_decide, not_le]
    | negInf | posInf => rfl
  | negInf | posInf =>
    cases b with
    | nan => exact absurd rfl hb
    | _ => rfl

theorem le_of_not_lt {a b : Extended} (ha : a ≠ .nan) (hb : b ≠ .nan) (h : ¬ b.lt a = true) :
    a.le b = true := by
  simpa [lt_eq_not_le hb ha] using h

protected theorem lt_of_lt_of_le {a b c : Extended} (h : a.lt b = true) (h' : b.le c = true) :
    a.lt c = true := by
  simp only [lt, Bool.and_eq_true, Bool.not_eq_true', ← Bool.not_eq_true] at h ⊢
  exact ⟨Extended.le_trans h.1 h', fun hca => h.2 (Extended.le_trans h' hca)⟩

end Extended

variable {α : Type} [Scalar α]

namespace Scalar

theorem isNaN_eq_false {a : α} : isNaN a = false ↔ value a ≠ .nan := by
  simp [isNaN]

theorem isNaN_of_isFinite {a : α} (h : isFinite a = true) : isNaN a = false := by
  rw [isNaN_eq_false]
  intro hv
  simp [isFinite, hv, Extended.isFinite] at h

theorem lt_self (a : α) : lt a a = false := by
  rw [lt, Extended.lt, Bool.and_not_self]

theorem same_self {a : α} (h : isNaN a = false) : same a a = true := by
  rw [same, Extended.same, Bool.and_self, Extended.le_refl (isNaN_eq_false.1 h)]

theorem same_of_lt {a b : α} (h : lt a b = true) : same a b = false := by
  rw [lt, Extended.lt, Bool.and_eq_true, Bool.not_eq_true'] at h
  rw [same, Extended.same, h.2, Bool.and_false]

/-- The larger number exceeds what either of the two exceeds, numbers or not. -/
theorem lt_greatest (t a b : α) : lt t (greatest a b) = (lt t a || lt t b) := by
  rw [greatest]
  cases ha : isNaN a with
  | true =>
    have hnan : value a = .nan := by simpa [isNaN] using ha
    simp [lt, Extended.lt, hnan]
  | false =>
    rw [if_neg Bool.false_ne_true]
    split
    · rename_i hab
      have hle : (value a).le (value b) = true := (Bool.and_eq_true_iff.1 hab).1
      have himp : lt t a = true → lt t b = true := fun h => Extended.lt_of_lt_of_le h hle
      cases hta : lt t a <;> simp_all
    · rename_i hab
      have himp : lt t b = true → lt t a = true := by
        intro h
        have hb : value b ≠ .nan := (Extended.ne_nan_of_le (Bool.and_eq_true_iff.1 h).1).2
        exact Extended.lt_of_lt_of_le h
          (Extended.le_of_not_lt hb (isNaN_eq_false.1 ha) hab)
      cases htb : lt t b <;> simp_all

end Scalar

namespace Interval

open Scalar

def Contains (i : Interval α) (q : Rat) : Prop :=
  (value i.1).le (.fin q) = true ∧ (Extended.fin q).le (value i.2) = true

instance (i : Interval α) (q : Rat) : Decidable (Interval.Contains i q) :=
  inferInstanceAs (Decidable (_ ∧ _))

theorem Contains.between {i : Interval α} {p q r : Rat} (hp : Interval.Contains i p)
    (hq : Interval.Contains i q) (h : p ≤ r ∧ r ≤ q ∨ q ≤ r ∧ r ≤ p) : Interval.Contains i r := by
  obtain ⟨hle, hge⟩ | ⟨hle, hge⟩ := h
  · exact ⟨Extended.le_fin_of_le hp.1 hle, Extended.fin_le_of_le hq.2 hge⟩
  · exact ⟨Extended.le_fin_of_le hq.1 hle, Extended.fin_le_of_le hp.2 hge⟩

theorem between_part {u : Rat} (hu : 0 ≤ u) (hu' : u ≤ 1) (p q : Rat) :
    p ≤ p + u * (q - p) ∧ p + u * (q - p) ≤ q ∨ q ≤ p + u * (q - p) ∧ p + u * (q - p) ≤ p := by
  obtain h | h := le_total p q
  · refine .inl ⟨?_, ?_⟩ <;> nlinarith
  · refine .inr ⟨?_, ?_⟩ <;> nlinarith

theorem Contains.part {i : Interval α} {p q u : Rat} (hp : Interval.Contains i p)
    (hq : Interval.Contains i q) (hu : 0 ≤ u) (hu' : u ≤ 1) :
    Interval.Contains i (p + u * (q - p)) :=
  hp.between hq (between_part hu hu' p q)

end Interval

end LinProg
