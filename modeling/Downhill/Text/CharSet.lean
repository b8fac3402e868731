namespace Downhill

/-- The character numbers from the first to the last. -/
structure CharRange where
  first : Nat
  last : Nat
  deriving DecidableEq, Repr

namespace CharRange

def contains (r : CharRange) (c : Char) : Bool :=
  r.first ≤ c.toNat && c.toNat ≤ r.last

/-- Whether the ranges ascend, with a gap between neighbours. -/
def ascending : List CharRange → Bool
  | [] => true
  | [r] => r.first ≤ r.last
  | r :: s :: rest => r.first ≤ r.last && r.last + 1 < s.first && ascending (s :: rest)

end CharRange

/-- A set of characters, written in one way only. -/
structure CharSet where
  ranges : List CharRange
  ascending : CharRange.ascending ranges = true

namespace CharSet

def contains (s : CharSet) (c : Char) : Bool :=
  s.ranges.any (·.contains c)

end CharSet

end Downhill
