namespace Downhill

/-- What a double stands for. A zero is the finite value with significand zero. -/
inductive Double
  | undefined
  | infinite (negative : Bool)
  /-- The value `significand * 2 ^ exponent`, with its sign. -/
  | finite (negative : Bool) (significand : Nat) (exponent : Int)
  deriving DecidableEq, Repr

namespace Double

/-- The leading bit of a significand, which is not stored; the bits behind it are. -/
def leadingBit : Nat :=
  0x10000000000000

/-- The exponent of the values whose leading bit is not stored, and of the next binade. -/
def lowestExponent : Int :=
  -1074

/-- The value of a bit pattern: sign, eleven bits of exponent, the stored significand. -/
def ofBits (bits : UInt64) : Double :=
  let negative := bits.toNat / 0x8000000000000000 = 1
  let field := bits.toNat / leadingBit % 2048
  let stored := bits.toNat % leadingBit
  if field = 2047 then
    if stored = 0 then .infinite negative else .undefined
  else if field = 0 then .finite negative stored lowestExponent
  else .finite negative (leadingBit + stored) (lowestExponent + (field - 1 : Nat))

def ofFloat (v : Float) : Double :=
  ofBits v.toBits

end Double

/-- A positive fraction. -/
structure Ratio where
  num : Nat
  den : Nat
  deriving DecidableEq, Repr

namespace Ratio

/-- The fraction `m * b ^ e`. -/
def scaled (m b : Nat) (e : Int) : Ratio :=
  match e with
  | .ofNat k => ⟨m * b.pow k, 1⟩
  | .negSucc k => ⟨m, b.pow (k + 1)⟩

/-- The fraction times `10 ^ e`. -/
def shift (r : Ratio) (e : Int) : Ratio :=
  match e with
  | .ofNat k => ⟨r.num * Nat.pow 10 k, r.den⟩
  | .negSucc k => ⟨r.num, r.den * Nat.pow 10 (k + 1)⟩

end Ratio

end Downhill
