import EntityBroker.Double.Shortest
import EntityBroker.Json

/-!
# Documents as text

The printer that the program is built with. Every document has a compact text, on one line without
spaces, and a text with a line for each item, two blanks deeper than what holds it.
-/

namespace EntityBroker.Json

-- ---------------------------------------------------------------- numbers

/-- How a decimal is written: the exponents of the first digit for which positional notation is
used. -/
structure NumberFormat where
  positionalFrom : Int
  positionalTo : Int

/-- Positional from `0.00001` up to sixteen digits before the point. -/
def numberFormat : NumberFormat := ⟨-5, 15⟩

/-- Digits with a point in front of position `point`, at least one digit on each side of it. -/
def positional (digits : List Char) (point : Int) : List Char :=
  if point ≤ 0 then '0' :: '.' :: List.replicate (-point).toNat '0' ++ digits
  else
    let whole := point.toNat
    let padding := List.replicate (whole - digits.length) '0'
    match digits.drop whole with
    | [] => digits ++ padding ++ ['.', '0']
    | part => digits.take whole ++ '.' :: part

/-- One digit, a point if more follow, and the exponent with its sign. -/
def scientific (digits : List Char) (exponent : Int) : List Char :=
  let sign := if exponent < 0 then '-' else '+'
  let exponentDigits := Nat.toDigits 10 exponent.natAbs
  match digits with
  | first :: more@(_ :: _) => first :: '.' :: more ++ 'e' :: sign :: exponentDigits
  | single => single ++ 'e' :: sign :: exponentDigits

def NumberFormat.write (format : NumberFormat) (d : Decimal) : List Char :=
  let digits := Nat.toDigits 10 d.digits
  let exponent := d.exponent + digits.length - 1
  let unsigned :=
    if format.positionalFrom ≤ exponent ∧ exponent ≤ format.positionalTo then
      positional digits (exponent + 1)
    else scientific digits exponent
  if d.negative then '-' :: unsigned else unsigned

-- ---------------------------------------------------------------- text

/-- Two hexadecimal digits. -/
def hexByte (n : Nat) : List Char := [Nat.digitChar (n / 16), Nat.digitChar (n % 16)]

def escape (c : Char) : List Char :=
  if c = '"' then ['\\', '"']
  else if c = '\\' then ['\\', '\\']
  else if c = '\x08' then ['\\', 'b']
  else if c = '\x0c' then ['\\', 'f']
  else if c = '\n' then ['\\', 'n']
  else if c = '\r' then ['\\', 'r']
  else if c = '\t' then ['\\', 't']
  else if c.toNat < 0x20 then '\\' :: 'u' :: '0' :: '0' :: hexByte c.toNat
  else [c]

def quote (s : String) : List Char := '"' :: s.toList.flatMap escape ++ ['"']

mutual
def render : Json → List Char
  | .null => "null".toList
  | .bool b => (if b then "true" else "false").toList
  | .int n => (toString n).toList
  | .float x => numberFormat.write x.shortest
  | .str s => quote s
  | .arr items => '[' :: renderItems items ++ [']']
  | .obj entries => '\x7b' :: renderEntries entries ++ ['\x7d']

def renderItems : List Json → List Char
  | [] => []
  | [item] => render item
  | item :: rest => render item ++ ',' :: renderItems rest

def renderEntries : List (String × Json) → List Char
  | [] => []
  | [(key, value)] => quote key ++ ':' :: render value
  | (key, value) :: rest => quote key ++ ':' :: render value ++ ',' :: renderEntries rest
end

/-- The document on one line without spaces. -/
def compact (j : Json) : String := String.ofList j.render

-- ---------------------------------------------------------------- for people

def lineAt (depth : Nat) : List Char := '\n' :: List.replicate (2 * depth) ' '

mutual
/-- A document whose first line stands where it stands, and whose others are so many levels deep. -/
def renderAt (depth : Nat) : Json → List Char
  | .arr (item :: rest) =>
    '[' :: renderItemsAt (depth + 1) (item :: rest) ++ lineAt depth ++ [']']
  | .obj (entry :: rest) =>
    '\x7b' :: renderEntriesAt (depth + 1) (entry :: rest) ++ lineAt depth ++ ['\x7d']
  | j => render j

def renderItemsAt (depth : Nat) : List Json → List Char
  | [] => []
  | [item] => lineAt depth ++ renderAt depth item
  | item :: rest => lineAt depth ++ renderAt depth item ++ ',' :: renderItemsAt depth rest

def renderEntriesAt (depth : Nat) : List (String × Json) → List Char
  | [] => []
  | [(key, value)] => lineAt depth ++ quote key ++ ':' :: ' ' :: renderAt depth value
  | (key, value) :: rest =>
    lineAt depth ++ quote key ++ ':' :: ' ' :: renderAt depth value ++
      ',' :: renderEntriesAt depth rest
end

def pretty (j : Json) : String := String.ofList (j.renderAt 0)

def printer : Printer := ⟨some ∘ compact, some ∘ pretty⟩

end EntityBroker.Json
