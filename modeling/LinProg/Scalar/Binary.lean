import LinProg.Scalar.Basic

/-!
Binary floating-point numbers as scalars. A finite number is `± m · 2^e`, and a rational is rounded
to the nearest number with ties to the even neighbour.
-/

namespace LinProg

open Float.Model (UnpackedFloat Format)
open Float.Model.UnpackedFloat (Sign)

namespace Binary

def scaled (m : Int) (e : Int) : Rat :=
  if 0 ≤ e then (m * Nat.pow 2 e.toNat : Int) else mkRat m (Nat.pow 2 (-e).toNat)

def exact : UnpackedFloat → Extended
  | .notANumber => .nan
  | .infinity .negative => .negInf
  | .infinity .positive => .posInf
  | .zero _ => .fin 0
  | .finite s m e _ => .fin (scaled (s.apply m) e)

def value (x : Float) : Extended :=
  exact x.toModel.unpack

def whole (s : Sign) (n : Nat) : UnpackedFloat :=
  if h : 0 < n then .finite s n 0 h else .zero s

def nearest (q : Rat) : Float :=
  let sign : Sign := if q.num < 0 then .negative else .positive
  .ofModel (.pack
    (UnpackedFloat.div Format.binary64 (whole sign q.num.natAbs) (whole .positive q.den)))

end Binary

instance : Scalar Float where
  zero := 0
  one := 1
  negInf := -1 / 0
  posInf := 1 / 0
  nan := 0 / 0
  value := Binary.value
  ofRat := Binary.nearest

instance : Root Float := ⟨Float.sqrt⟩

end LinProg
