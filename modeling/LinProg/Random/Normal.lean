import LinProg.Random.Stream

/-!
Numbers from the standard normal distribution, by the ziggurat method: layers of equal area under
the density, a strip with the tail at the bottom, and few cases in which the density is computed.
-/

namespace LinProg.Random

namespace Normal

def tailStart : Float := 3.654152885361008796

def layerArea : Float := 0.00492867323399

def density (x : Float) : Float :=
  Float.exp (-x * x / 2)

/-- The right ends of the layers, from the bottom to the top. -/
def edges : Array Float :=
  let next (xs : Array Float) (_ : Nat) : Array Float :=
    let x := xs.getD (xs.size - 1) 0
    xs.push (Float.sqrt (-2 * Float.log (layerArea / x + density x)))
  ((List.range 254).foldl next #[layerArea / density tailStart, tailStart]).push 0

def heights : Array Float :=
  edges.map density

/-- A number beyond the start of the tail, as its distance from there. -/
def tail (x y : Float) (g : Stream) : Nat → Float × Stream
  | 0 => (x, g)
  | tries + 1 =>
    if -2 * y < x * x then
      let (u, g) := g.open01
      let (v, g) := g.open01
      tail (Float.log u / tailStart) (Float.log v) g tries
    else (x, g)

/-- How often a draw may be rejected before the last one is taken. -/
def tries : Nat := Nat.pow 2 20

def draw (g : Stream) : Nat → Float × Stream
  | 0 => (0, g)
  | left + 1 =>
    let (bits, g) := g.next
    let layer := (bits &&& 255).toNat
    let u := (bits >>> 12).toFloat * (1 / 2251799813685248) - 1
    let x := u * edges.getD layer 0
    if x.abs < edges.getD (layer + 1) 0 then (x, g)
    else if layer = 0 then
      let (x, g) := tail 1 0 g tries
      (if u < 0 then x - tailStart else tailStart - x, g)
    else
      let (v, g) := g.unit
      let low := heights.getD (layer + 1) 0
      if low + (heights.getD layer 0 - low) * v < density x then (x, g) else draw g left

end Normal

def Stream.normal (g : Stream) : Float × Stream :=
  Normal.draw g Normal.tries

end LinProg.Random
