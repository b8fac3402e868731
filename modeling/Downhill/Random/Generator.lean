namespace Downhill

/-- The state of the generator. -/
structure Generator where
  a : UInt64
  b : UInt64
  c : UInt64
  d : UInt64
  deriving DecidableEq, Repr

namespace Generator

/-- The word turned to the left. -/
def turn (w : UInt64) (places : UInt64) : UInt64 :=
  (w <<< places) ||| (w >>> (64 - places))

/-- The bits of a counter mixed. -/
def mix (w : UInt64) : UInt64 :=
  let w := (w ^^^ (w >>> 30)) * 0xbf58476d1ce4e5b9
  let w := (w ^^^ (w >>> 27)) * 0x94d049bb133111eb
  w ^^^ (w >>> 31)

/-- The state for a seed: four values of a counter that starts behind the seed, mixed. -/
def ofSeed (seed : UInt64) : Generator :=
  let stride : UInt64 := 0x9e3779b97f4a7c15
  ⟨mix (seed + stride), mix (seed + 2 * stride), mix (seed + 3 * stride), mix (seed + 4 * stride)⟩

/-- The next 64 bits. -/
def next (g : Generator) : UInt64 × Generator :=
  let c := g.c ^^^ g.a
  let d := g.d ^^^ g.b
  (turn (g.b * 5) 7 * 9, ⟨g.a ^^^ d, g.b ^^^ c, c ^^^ (g.b <<< 17), turn d 45⟩)

end Generator

end Downhill
