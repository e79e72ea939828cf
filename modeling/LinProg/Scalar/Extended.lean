/-!
Extended rationals: the exact values that numbers of a problem can have. They are compared and
combined without rounding, and what has no value is `nan`, which compares with nothing.
-/

namespace LinProg

inductive Extended where
  | nan
  | negInf
  | fin (q : Rat)
  | posInf
  deriving DecidableEq, Inhabited

namespace Extended

def le : Extended → Extended → Bool
  | .nan, _ => false
  | _, .nan => false
  | .negInf, _ => true
  | _, .posInf => true
  | .fin p, .fin q => decide (p ≤ q)
  | .fin _, .negInf => false
  | .posInf, _ => false

def lt (a b : Extended) : Bool :=
  le a b && !le b a

def same (a b : Extended) : Bool :=
  le a b && le b a

def isFinite : Extended → Bool
  | .fin _ => true
  | _ => false

def toRat? : Extended → Option Rat
  | .fin q => some q
  | _ => none

@[simp] theorem le_nan (a : Extended) : le a .nan = false := by cases a <;> rfl

@[simp] theorem nan_le (a : Extended) : le .nan a = false := by cases a <;> rfl

@[simp] theorem fin_le_fin (p q : Rat) : le (.fin p) (.fin q) = decide (p ≤ q) := rfl

@[simp] theorem fin_lt_fin (p q : Rat) : lt (.fin p) (.fin q) = decide (p < q) := by
  simp only [lt, fin_le_fin]
  by_cases h : p < q
  · simp [h, Rat.le_of_lt h, Rat.not_le.2 h]
  · simp [h, Rat.not_lt.1 h]

def signed (q : Rat) (positive negative : Extended) : Extended :=
  if q = 0 then .nan else if 0 < q then positive else negative

def neg : Extended → Extended
  | .nan => .nan
  | .negInf => .posInf
  | .fin q => .fin (-q)
  | .posInf => .negInf

def add : Extended → Extended → Extended
  | .nan, _ => .nan
  | _, .nan => .nan
  | .fin p, .fin q => .fin (p + q)
  | .negInf, .posInf => .nan
  | .posInf, .negInf => .nan
  | .negInf, _ => .negInf
  | _, .negInf => .negInf
  | .posInf, _ => .posInf
  | _, .posInf => .posInf

def mul : Extended → Extended → Extended
  | .nan, _ => .nan
  | _, .nan => .nan
  | .fin p, .fin q => .fin (p * q)
  | .fin p, .posInf => signed p .posInf .negInf
  | .fin p, .negInf => signed p .negInf .posInf
  | .posInf, .fin q => signed q .posInf .negInf
  | .negInf, .fin q => signed q .negInf .posInf
  | .posInf, .posInf => .posInf
  | .negInf, .negInf => .posInf
  | .posInf, .negInf => .negInf
  | .negInf, .posInf => .negInf

/-- Zero has no sign here, so a quotient by zero is `nan`. -/
def div : Extended → Extended → Extended
  | .nan, _ => .nan
  | _, .nan => .nan
  | .fin p, .fin q => if q = 0 then .nan else .fin (p / q)
  | .fin _, _ => .fin 0
  | .posInf, .fin q => signed q .posInf .negInf
  | .negInf, .fin q => signed q .negInf .posInf
  | .posInf, _ => .nan
  | .negInf, _ => .nan

instance : Zero Extended := ⟨.fin 0⟩
instance : One Extended := ⟨.fin 1⟩
instance : Neg Extended := ⟨neg⟩
instance : Add Extended := ⟨add⟩
instance : Sub Extended := ⟨fun a b => add a (neg b)⟩
instance : Mul Extended := ⟨mul⟩
instance : Div Extended := ⟨div⟩

theorem zero_def : (0 : Extended) = .fin 0 := rfl

@[simp] theorem neg_fin (q : Rat) : -(Extended.fin q) = .fin (-q) := rfl

@[simp] theorem fin_add_fin (p q : Rat) : Extended.fin p + .fin q = .fin (p + q) := rfl

@[simp] theorem fin_mul_fin (p q : Rat) : Extended.fin p * .fin q = .fin (p * q) := rfl

@[simp] theorem fin_sub_fin (p q : Rat) : Extended.fin p - .fin q = .fin (p - q) := by
  rw [Rat.sub_eq_add_neg]; rfl

/-- The smallest integer that is not below the value, kept between two limits; 0 for `nan`. -/
def ceilWithin (least greatest : Int) : Extended → Int
  | .nan => 0
  | .negInf => least
  | .fin q => max least (min greatest q.ceil)
  | .posInf => greatest

def floorWithin (least greatest : Int) : Extended → Int
  | .nan => 0
  | .negInf => least
  | .fin q => max least (min greatest q.floor)
  | .posInf => greatest

end Extended

end LinProg
