/-!
# Binary floating point numbers

A double is its 64-bit word: sign, eleven exponent bits, fifty-two fraction bits. A finite double is
`± significand * 2 ^ scale`, both read off the word. `Double.same` is the comparison of numbers, in
which no NaN equals anything and the two zeros are equal; `=` is equality of words.
-/

namespace EntityBroker

structure Double where
  bits : UInt64
  deriving DecidableEq, Inhabited

namespace Double

def fraction (x : Double) : Nat := x.bits.toNat % Nat.pow 2 52

def exponentField (x : Double) : Nat := x.bits.toNat / Nat.pow 2 52 % Nat.pow 2 11

def isNegative (x : Double) : Bool := Nat.pow 2 63 ≤ x.bits.toNat

def isFinite (x : Double) : Bool := x.exponentField != 2047

def isNaN (x : Double) : Bool := x.exponentField == 2047 && x.fraction != 0

def isZero (x : Double) : Bool := x.exponentField == 0 && x.fraction == 0

/-- Equality of numbers rather than of words. -/
def same (x y : Double) : Bool :=
  !x.isNaN && !y.isNaN && (x == y || x.isZero && y.isZero)

/-- The whole number that the power of two scales; the leading bit is implied unless the exponent
field is zero. -/
def significand (x : Double) : Nat :=
  if x.exponentField = 0 then x.fraction else x.fraction + Nat.pow 2 52

def scale (x : Double) : Int := max 1 x.exponentField - 1075

/-- The word of a magnitude with a sign put on it. -/
def ofMagnitude (negative : Bool) (magnitude : Nat) : Double :=
  ⟨UInt64.ofNat (if negative then Nat.pow 2 63 + magnitude else magnitude)⟩

/-- The magnitude one above that of the largest finite double. -/
def infinityMagnitude : Nat := 2047 * Nat.pow 2 52

def infinity (negative : Bool) : Double := ofMagnitude negative infinityMagnitude

def nan : Double := ofMagnitude false (infinityMagnitude + Nat.pow 2 51)

theorem same_self_iff (x : Double) : x.same x = true ↔ x.isNaN = false := by
  simp [same]

end Double

end EntityBroker
