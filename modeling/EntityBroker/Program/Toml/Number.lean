import EntityBroker.Double.Decimal
import EntityBroker.Program.Toml.Line

/-!
# Numbers

Whole numbers in four bases, which have to fit in 64 bits, and floats. Single underscores may stand
between digits. A decimal number does not start with a zero that more digits follow.
-/

namespace EntityBroker.Toml

/-- Digits with single underscores between them; `none` if an underscore is not between two digits.
-/
def moreDigits (isDigit : Char → Bool) : Reader (List Char)
  | [] => some ([], [])
  | ['_'] => none
  | '_' :: c :: rest =>
    if isDigit c then (moreDigits isDigit rest).map fun (cs, rest) => (c :: cs, rest) else none
  | c :: rest =>
    if isDigit c then (moreDigits isDigit rest).map fun (cs, rest) => (c :: cs, rest)
    else some ([], c :: rest)

def digits (isDigit : Char → Bool) : Reader (List Char)
  | [] => none
  | c :: rest =>
    if isDigit c then (moreDigits isDigit rest).map fun (cs, rest) => (c :: cs, rest) else none

/-- The digits before a point: a zero alone, or digits that do not start with one. -/
def wholeDigits : Reader (List Char)
  | '0' :: rest => some (['0'], rest)
  | text => digits Char.isDigit text

def isHexDigit (c : Char) : Bool := c.isDigit || ('a' ≤ c && c ≤ 'f') || ('A' ≤ c && c ≤ 'F')

def digitValue (c : Char) : Nat :=
  if c.isDigit then c.toNat - '0'.toNat
  else if 'a' ≤ c then c.toNat - 'a'.toNat + 10
  else c.toNat - 'A'.toNat + 10

def ofDigitsIn (base : Nat) (ds : List Char) : Nat :=
  ds.foldl (fun n c => base * n + digitValue c) 0

/-- A whole number, if it fits in 64 bits. -/
def integer? (n : Int) : Option Value :=
  if Int64.minValue.toInt ≤ n ∧ n ≤ Int64.maxValue.toInt then some (.integer (Int64.ofInt n))
  else none

def basedInteger (base : Nat) (isDigit : Char → Bool) (text : List Char) :
    Option (Value × List Char) :=
  match digits isDigit text with
  | none => none
  | some (ds, rest) => (integer? (ofDigitsIn base ds)).map (·, rest)

/-- A sign and digits after the exponent mark, or exponent zero without a mark. -/
def exponentPart : Reader (Option Int)
  | [] => some (none, [])
  | c :: rest =>
    if c = 'e' ∨ c = 'E' then
      let (negative, unsigned) := Decimal.splitSign rest
      (digits Char.isDigit unsigned).map fun (ds, rest) =>
        let magnitude : Int := Decimal.ofDigits ds
        (some (if negative then -magnitude else magnitude), rest)
    else some (none, c :: rest)

def fractionPart : Reader (Option (List Char))
  | '.' :: rest => (digits Char.isDigit rest).map fun (ds, rest) => (some ds, rest)
  | text => some (none, text)

/-- The float nearest to a decimal. A magnitude that is too large is refused above zero only. -/
def float? (d : Decimal) : Option Value :=
  if d.nearest = Double.infinity false then none else some (.float d.nearest)

/-- What follows the sign of a number: a special float, or digits with a fraction or exponent or
not. -/
def unsignedNumber (negative : Bool) : Reader Value
  | 'i' :: 'n' :: 'f' :: rest => some (.float (Double.infinity negative), rest)
  | 'n' :: 'a' :: 'n' :: rest => some (.float Double.nan, rest)
  | text => do
    let (whole, rest) ← wholeDigits text
    let (part, rest) ← fractionPart rest
    let (exponent, rest) ← exponentPart rest
    let value ← match part, exponent with
      | none, none =>
        let magnitude : Int := Decimal.ofDigits whole
        integer? (if negative then -magnitude else magnitude)
      | part, exponent =>
        let part := part.getD []
        float? ⟨negative, Decimal.ofDigits (whole ++ part), exponent.getD 0 - part.length⟩
    return (value, rest)

def number : Reader Value
  | '0' :: 'x' :: rest => basedInteger 16 isHexDigit rest
  | '0' :: 'o' :: rest => basedInteger 8 (fun c => '0' ≤ c && c ≤ '7') rest
  | '0' :: 'b' :: rest => basedInteger 2 (fun c => c = '0' || c = '1') rest
  | text =>
    let (negative, unsigned) := Decimal.splitSign text
    unsignedNumber negative unsigned

end EntityBroker.Toml
