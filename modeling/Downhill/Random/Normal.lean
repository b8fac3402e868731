import Downhill.Random.Generator
import Downhill.Random.Layers

namespace Downhill.Normal

/-- The number of rounds after which a sample is given up as zero. -/
def maxRounds : Nat :=
  1000

/-- Where the tail begins. -/
def tailStart : Float :=
  3.654152885361008796

/-- A number from the bits, at least one and below two. -/
def unitAboveOne (bits : UInt64) : Float :=
  Float.ofBits ((bits >>> 12) ||| 0x3ff0000000000000)

/-- A number from the bits, at least minus one and below one. -/
def centred (bits : UInt64) : Float :=
  Float.ofBits ((bits >>> 12) ||| 0x4000000000000000) - 3.0

/-- A number from the bits, strictly between zero and one. -/
def open01 (bits : UInt64) : Float :=
  unitAboveOne bits - (1.0 - Float.ofBits 0x3ca0000000000000)

/-- A number from the bits, at least zero and below one, on the finest even grid. -/
def halfOpen01 (bits : UInt64) : Float :=
  (bits >>> 11).toFloat * Float.ofBits 0x3ca0000000000000

/-- A distance from the start of the tail, by rejection from an exponential density. -/
def tail : (rounds : Nat) → (x y : Float) → Generator → Float × Generator
  | 0, x, _, g => (x, g)
  | rounds + 1, x, y, g =>
    if -2.0 * y < x * x then
      let (first, g) := g.next
      let (second, g) := g.next
      tail rounds ((open01 first).log / tailStart) (open01 second).log g
    else (x, g)

/-- A standard normal number, with so many rounds still allowed: a strip is chosen and a point in it, which is
taken where the density covers the strip whole, and tested against the density elsewhere. -/
def sample : (rounds : Nat) → Generator → Float × Generator
  | 0, g => (0.0, g)
  | rounds + 1, g =>
    let (bits, g) := g.next
    let layer := bits.toNat % Layers.count
    have below : layer < 256 := Nat.mod_lt _ (by decide)
    let u := centred bits
    let x := u * Layers.abscissae[layer]
    if x.abs < Layers.abscissae[layer + 1] then (x, g)
    else if layer = 0 then
      let (beyond, g) := tail maxRounds 1.0 0.0 g
      (if u < 0.0 then beyond - tailStart else tailStart - beyond, g)
    else
      let (bits, g) := g.next
      let low := Layers.heights[layer + 1]
      if low + (Layers.heights[layer] - low) * halfOpen01 bits < (-x * x / 2.0).exp then (x, g)
      else sample rounds g

/-- The next standard normal number. -/
def next (g : Generator) : Float × Generator :=
  sample maxRounds g

end Downhill.Normal
