import EntityBroker.Double.Basic

/-!
# Decimals and the doubles nearest to them

A decimal is `± digits * 10 ^ exponent`. `Decimal.nearest` rounds it once, in whole numbers, to the
nearest double with ties to the even significand; `Decimal.parse?` reads the usual written form.
-/

namespace EntityBroker

structure Decimal where
  negative : Bool
  digits : Nat
  exponent : Int
  deriving DecidableEq, Repr

namespace Decimal

/-- The quotient rounded to the nearest whole number, a half going to the even neighbour. -/
def roundHalfEven (numerator denominator : Nat) : Nat :=
  let quotient := numerator / denominator
  let twice := 2 * (numerator % denominator)
  if twice < denominator then quotient
  else if denominator < twice then quotient + 1
  else quotient + quotient % 2

/-- The largest `k` with `2 ^ k ≤ numerator / denominator`, for a positive quotient. -/
def floorLog2 (numerator denominator : Nat) : Int :=
  let k : Int := (numerator.log2 : Int) - denominator.log2
  if denominator * Nat.pow 2 k.toNat ≤ numerator * Nat.pow 2 (-k).toNat then k else k - 1

/-- The magnitude of the double nearest to a positive quotient. A significand that rounds up to
`2 ^ 53` carries into the exponent by the same sum that joins the two. -/
def nearestMagnitude (numerator denominator : Nat) : Nat :=
  let scale := max (floorLog2 numerator denominator - 52) (-1074)
  let significand :=
    roundHalfEven (numerator * Nat.pow 2 (-scale).toNat) (denominator * Nat.pow 2 scale.toNat)
  min ((scale + 1074).toNat * Nat.pow 2 52 + significand) Double.infinityMagnitude

/-- The number of decimal digits; one for zero. -/
def length (n : Nat) : Nat := (Nat.toDigits 10 n).length

/-- The nearest double. Magnitudes far outside the range of doubles are settled without a power. -/
def nearest (d : Decimal) : Double :=
  let order := d.exponent + length d.digits
  if d.digits = 0 ∨ order < -400 then Double.ofMagnitude d.negative 0
  else if 400 < order then Double.infinity d.negative
  else Double.ofMagnitude d.negative
    (nearestMagnitude (d.digits * Nat.pow 10 d.exponent.toNat) (Nat.pow 10 (-d.exponent).toNat))

-- ---------------------------------------------------------------- the written form

/-- The number that decimal digits, first digit first, write down. -/
def ofDigits (digits : List Char) : Nat :=
  digits.foldl (fun n c => 10 * n + (c.toNat - '0'.toNat)) 0

/-- A sign, if there is one, and what follows it. -/
def splitSign : List Char → Bool × List Char
  | '-' :: rest => (true, rest)
  | '+' :: rest => (false, rest)
  | text => (false, text)

/-- The leading digits and what follows them. -/
def spanDigits (text : List Char) : List Char × List Char := text.span Char.isDigit

/-- An exponent to the end of the text: nothing, or a mark, a sign if any, and digits. -/
def parseExponent? : List Char → Option Int
  | [] => some 0
  | mark :: rest =>
    if mark = 'e' ∨ mark = 'E' then
      let (negative, digits) := splitSign rest
      if digits ≠ [] ∧ digits.all Char.isDigit then
        some (if negative then -(ofDigits digits : Int) else ofDigits digits)
      else none
    else none

/-- The fraction digits after a point, if there is a point, and what follows. -/
def spanFraction : List Char → List Char × List Char
  | '.' :: rest => spanDigits rest
  | text => ([], text)

/-- A sign, digits with at most one point among them, an exponent; all optional but one digit. -/
def parse? (text : List Char) : Option Decimal :=
  let (negative, unsigned) := splitSign text
  let (whole, afterWhole) := spanDigits unsigned
  let (part, afterPart) := spanFraction afterWhole
  if whole ++ part = [] then none
  else (parseExponent? afterPart).map fun exponent =>
    ⟨negative, ofDigits (whole ++ part), exponent - part.length⟩

end Decimal

end EntityBroker
