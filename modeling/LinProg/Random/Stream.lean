/-!
Random words: the key stream of ChaCha with twelve rounds, under a key that is drawn out of a seed.
The words are numbered, so a stream is its key and how many words have been drawn from it.
-/

namespace LinProg.Random

structure Stream where
  key : Vector UInt32 8
  /-- How many double words have been drawn. -/
  drawn : Nat
  deriving DecidableEq

namespace Stream

def rotateLeft (x : UInt32) (n : UInt32) : UInt32 :=
  x <<< n ||| x >>> (32 - n)

def rotateRight (x : UInt32) (n : UInt32) : UInt32 :=
  if n = 0 then x else x >>> n ||| x <<< (32 - n)

def keyWords (state : UInt64) : Nat → List UInt32
  | 0 => []
  | n + 1 =>
    let s := state * 6364136223846793005 + 11634580027462260723
    let w := ((s >>> 18 ^^^ s) >>> 27).toUInt32
    rotateRight w (s >>> 59).toUInt32 :: keyWords s n

def ofSeed (seed : UInt64) : Stream :=
  ⟨.ofFn fun i => (keyWords seed 8).getD i 0, 0⟩

abbrev Block := Vector UInt32 16

def quarter (b : Block) (i j k l : Fin 16) : Block :=
  let b := b.set i (b[i] + b[j])
  let b := b.set l (rotateLeft (b[l] ^^^ b[i]) 16)
  let b := b.set k (b[k] + b[l])
  let b := b.set j (rotateLeft (b[j] ^^^ b[k]) 12)
  let b := b.set i (b[i] + b[j])
  let b := b.set l (rotateLeft (b[l] ^^^ b[i]) 8)
  let b := b.set k (b[k] + b[l])
  b.set j (rotateLeft (b[j] ^^^ b[k]) 7)

def doubleRound (b : Block) : Block :=
  let b := quarter b 0 4 8 12
  let b := quarter b 1 5 9 13
  let b := quarter b 2 6 10 14
  let b := quarter b 3 7 11 15
  let b := quarter b 0 5 10 15
  let b := quarter b 1 6 11 12
  let b := quarter b 2 7 8 13
  quarter b 3 4 9 14

def start (key : Vector UInt32 8) (block : Nat) : Block :=
  #v[0x61707865, 0x3320646e, 0x79622d32, 0x6b206574,
    key[0], key[1], key[2], key[3], key[4], key[5], key[6], key[7],
    .ofNat block, .ofNat (block / Nat.pow 2 32), 0, 0]

def block (key : Vector UInt32 8) (number : Nat) : Block :=
  let first := start key number
  first.zipWith (· + ·) (Nat.repeat doubleRound 6 first)

/-- The next two words, the first of which is the low half. -/
def next (g : Stream) : UInt64 × Stream :=
  let b := block g.key (g.drawn / 8)
  let place := 2 * (g.drawn % 8)
  let low := b.toArray.getD place 0
  let high := b.toArray.getD (place + 1) 0
  (high.toUInt64 <<< 32 ||| low.toUInt64, { g with drawn := g.drawn + 1 })

def unit (g : Stream) : Float × Stream :=
  let (bits, g) := g.next
  ((bits >>> 11).toFloat * (1 / 9007199254740992), g)

def open01 (g : Stream) : Float × Stream :=
  let (bits, g) := g.next
  (((bits >>> 12).toFloat + 0.5) * (1 / 4503599627370496), g)

end Stream

end LinProg.Random
