/-!
# Numbers in decimal digits

Settings of the environment may be numbers. Reading them is lenient: one plus sign may stand in
front, and so may any number of zeros.
-/

namespace EntityBroker

def parseNat? (text : List Char) : Option Nat :=
  let digits := if text.head? = some '+' then text.tail else text
  if digits ≠ [] ∧ digits.all Char.isDigit then some (Nat.ofDigitChars 10 digits 0) else none

/-- A number that has room in a byte. -/
def parseByte? (text : List Char) : Option Nat := (parseNat? text).filter (· < 256)

end EntityBroker
