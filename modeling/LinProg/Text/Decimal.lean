import LinProg.Scalar.Binary

/-!
Decimal digits of rationals: the fewest digits inside a span of reals, and a fixed number of
places with ties to the even neighbour.
-/

namespace LinProg

/-- The number `digits · 10^exponent`. -/
structure Decimal where
  digits : Nat
  exponent : Int
  deriving DecidableEq, Inhabited

/-- The reals that a number stands for, with or without the ends. -/
structure Span where
  low : Rat
  high : Rat
  closed : Bool

namespace Span

def holds (s : Span) (q : Rat) : Bool :=
  if s.closed then s.low ≤ q && q ≤ s.high else s.low < q && q < s.high

end Span

namespace Decimal

def power (e : Int) : Rat :=
  if 0 ≤ e then (Nat.pow 10 e.toNat : Rat) else mkRat 1 (Nat.pow 10 (-e).toNat)

def value (d : Decimal) : Rat :=
  d.digits * power d.exponent

def length (n : Nat) : Nat :=
  (Nat.toDigits 10 n).length

/-- The `p` with `10^(p-1) ≤ q < 10^p`, for positive `q`. -/
def magnitude (q : Rat) : Int :=
  if 1 ≤ q then length q.floor.toNat else 1 - length ((1 / q).ceil.toNat - 1)

/-- The nearest number of `count` digits to `q`, among those in the span; a tie goes up. -/
def withDigits? (q : Rat) (s : Span) (count : Nat) : Option Decimal :=
  let e := magnitude q - count
  let low : Decimal := ⟨(q / power e).floor.toNat, e⟩
  let high : Decimal := ⟨low.digits + 1, e⟩
  match s.holds low.value, s.holds high.value with
  | true, true => some (if q - low.value < high.value - q then low else high)
  | true, false => some low
  | false, true => some high
  | false, false => none

/-- The number with the fewest digits in the span, of at most `most` digits, and of those with that
many the nearest to `q`. -/
def shortest (q : Rat) (s : Span) (most : Nat) : Decimal :=
  ((List.range most).findSome? fun k => withDigits? q s (k + 1)).getD
    ⟨(q / power (magnitude q - most)).floor.toNat, magnitude q - most⟩

def reduced (d : Decimal) : Nat → Decimal
  | 0 => d
  | k + 1 => if d.digits % 10 = 0 then reduced ⟨d.digits / 10, d.exponent + 1⟩ k else d

def positional (d : Decimal) : String :=
  let cs := Nat.toDigits 10 d.digits
  if 0 ≤ d.exponent then .ofList (cs ++ List.replicate d.exponent.toNat '0')
  else
    let places := (-d.exponent).toNat
    let padded := List.replicate (places + 1 - cs.length) '0' ++ cs
    let whole := padded.length - places
    .ofList (padded.take whole ++ '.' :: padded.drop whole)

def scientific (d : Decimal) : String :=
  let cs := Nat.toDigits 10 d.digits
  let e := d.exponent + cs.length - 1
  match cs with
  | [] => ""
  | [c] => .ofList [c, 'e'] ++ toString e
  | c :: rest => .ofList (c :: '.' :: rest ++ ['e']) ++ toString e

def roundEven (q : Rat) : Int :=
  let low := q.floor
  let rest := q - low
  if rest < 1 / 2 then low
  else if 1 / 2 < rest then low + 1
  else if low % 2 = 0 then low else low + 1

/-- `q` with `places` digits after the point; zero has no sign. -/
def fixed (places : Nat) (q : Rat) : String :=
  let n := roundEven (q * Nat.pow 10 places)
  (if n < 0 then "-" else "") ++ positional ⟨n.natAbs, -places⟩

end Decimal

end LinProg
