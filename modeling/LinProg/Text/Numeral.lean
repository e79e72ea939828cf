import LinProg.Text.Decimal

/-!
Written numbers. The plain form has the fewest digits that read back as the same number and never
an exponent; the signed form puts a plus before what is not negative; the long form keeps a point
in every finite number and has an exponent for the very large and the very small. A weighted sum of
columns is written with the signed form of each weight before the name of its column.
-/

namespace LinProg

class Numeral (α : Type) where
  plain : α → String
  signed : α → String
  long : α → String

open Float.Model (UnpackedFloat)
open Float.Model.UnpackedFloat (Sign)

namespace Binary

/-- The reals that round to `m · 2^e`. Below a power of two the neighbours are twice as close. -/
def span (m : Nat) (e : Int) : Span where
  low := scaled m e - (if m = Nat.pow 2 52 ∧ -1074 < e then scaled 1 (e - 2) else scaled 1 (e - 1))
  high := scaled m e + scaled 1 (e - 1)
  closed := m % 2 = 0

def digits (m : Nat) (e : Int) : Decimal :=
  (Decimal.shortest (scaled m e) (span m e) 17).reduced 17

def mark : Sign → String
  | .negative => "-"
  | .positive => ""

def text (set : Decimal → String) : UnpackedFloat → String
  | .notANumber => "NaN"
  | .infinity s => mark s ++ "inf"
  | .zero s => mark s ++ set ⟨0, 0⟩
  | .finite s m e _ => mark s ++ set (digits m e)

def long (d : Decimal) : String :=
  let e := d.exponent + Decimal.length d.digits
  if d.digits ≠ 0 ∧ (e ≤ -4 ∨ 16 < e) then d.scientific
  else if d.exponent < 0 then d.positional
  else d.positional ++ ".0"

def plus : UnpackedFloat → String
  | .infinity .positive | .zero .positive | .finite .positive .. => "+"
  | _ => ""

/-- Six places, for numbers that are known only nearly. -/
def sixPlaces (x : Float) : String :=
  match value x with
  | .nan => "NaN"
  | .negInf => "-inf"
  | .posInf => "inf"
  | .fin q => Decimal.fixed 6 q

end Binary

instance : Numeral Float where
  plain x := Binary.text Decimal.positional x.toModel.unpack
  signed x := Binary.plus x.toModel.unpack ++ Binary.text Decimal.positional x.toModel.unpack
  long x := Binary.text Binary.long x.toModel.unpack

namespace Text

def columnName (column : Nat) : String :=
  s!"x{column}"

variable {α : Type} [Numeral α]

def termText (term : Nat × α) : String :=
  s!"{Numeral.signed term.2} {columnName term.1}"

/-- A sum without terms has a zero for its only term. -/
def sumText (terms : List (Nat × α)) : String :=
  match terms with
  | [] => "0 x0"
  | terms => " ".intercalate (terms.map termText)

end Text

end LinProg
