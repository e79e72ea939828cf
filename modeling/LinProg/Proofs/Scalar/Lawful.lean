import LinProg.Problem.Validate

/-!
Lawful scalars: the constants have the values that they are named for, and a negation is exact. The
other operations may round, except that nothing is lost when a number is added to 0.
-/

namespace LinProg

open Scalar

class LawfulScalar (α : Type) [Scalar α] : Prop where
  value_zero : value (0 : α) = .fin 0
  value_one : value (1 : α) = .fin 1
  value_negInf : value (negInf : α) = .negInf
  value_posInf : value (posInf : α) = .posInf
  value_neg (a : α) : value (-a) = (value a).neg

theorem Extended.zero_add (a : Extended) : 0 + a = a := by
  cases a with
  | fin q => exact congrArg Extended.fin (Rat.zero_add q)
  | nan | negInf | posInf => rfl

instance : LawfulScalar Extended where
  value_zero := rfl
  value_one := rfl
  value_negInf := rfl
  value_posInf := rfl
  value_neg _ := rfl

/-- Adding to 0 gives the number back, but for the sign of a zero. -/
class LawfulSum (α : Type) [Scalar α] : Prop where
  zero_add (a : α) : nonzero a = true → 0 + a = a
  isZero_zero_add (a : α) : isZero a = true → isZero (0 + a) = true

instance : LawfulSum Extended where
  zero_add a _ := a.zero_add
  isZero_zero_add a h := by rwa [a.zero_add]

theorem Extended.neg_same_zero (a : Extended) : a.neg.same (.fin 0) = a.same (.fin 0) := by
  cases a with
  | fin q =>
    have hle : -q ≤ 0 ↔ 0 ≤ q := by rw [Rat.neg_le_iff, Rat.neg_zero]
    have hge : 0 ≤ -q ↔ q ≤ 0 := by rw [Rat.le_neg_iff, Rat.neg_zero]
    simp [neg, same, hle, hge, Bool.and_comm]
  | nan | negInf | posInf => rfl

namespace LawfulScalar

variable {α : Type} [Scalar α] [LawfulScalar α]

theorem isZero_zero : isZero (0 : α) = true := by
  rw [isZero, same, value_zero]
  rfl

theorem isZero_one : isZero (1 : α) = false := by
  rw [isZero, same, value_zero, value_one]
  rfl

theorem isZero_neg (a : α) : isZero (-a) = isZero a := by
  rw [isZero, isZero, same, same, value_neg, value_zero, Extended.neg_same_zero]

theorem negInf_lt {a : α} (h : isFinite a = true) : lt negInf a = true := by
  rw [isFinite] at h
  rw [lt, value_negInf]
  cases hv : value a with
  | fin q => rfl
  | nan | negInf | posInf => simp [hv, Extended.isFinite] at h

theorem lt_posInf {a : α} (h : isFinite a = true) : lt a posInf = true := by
  rw [isFinite] at h
  rw [lt, value_posInf]
  cases hv : value a with
  | fin q => rfl
  | nan | negInf | posInf => simp [hv, Extended.isFinite] at h

theorem badBounds_free : Problem.badBounds ((negInf, posInf) : α × α) = false := by
  rw [Problem.badBounds, isNaN, isNaN, lt, value_negInf, value_posInf]
  rfl

end LawfulScalar

end LinProg
