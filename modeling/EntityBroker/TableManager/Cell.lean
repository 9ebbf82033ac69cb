import EntityBroker.Double.Decimal
import EntityBroker.Value

/-!
# Cells and rows

A table of property values is text with one row a line and commas between the cells. A cell that
reads as a whole number in range is an integer, else one that reads as a finite float is a float,
else `true` and `false` are booleans; any other cell is text.
-/

namespace EntityBroker.TableManager

/-- The pieces between the separators: one more than there are separators. -/
def splitOn (separator : Char) : List Char → List (List Char)
  | [] => [[]]
  | c :: rest =>
    if c = separator then [] :: splitOn separator rest
    else match splitOn separator rest with
      | [] => [[c]]
      | piece :: pieces => (c :: piece) :: pieces

/-- The line without a carriage return that stands before its line feed. -/
def dropReturn (line : List Char) : List Char :=
  if line.getLast? = some '\r' then line.dropLast else line

/-- The lines of a text. The last one may lack its line feed, and keeps a carriage return then. -/
def linesOf : List (List Char) → List (List Char)
  | [] => []
  | [last] => if last = [] then [] else [last]
  | line :: rest => dropReturn line :: linesOf rest

def lines (text : String) : List (List Char) := linesOf (splitOn '\n' text.toList)

-- ---------------------------------------------------------------- typing

/-- A whole number with at most one sign, if it fits in 64 bits. -/
def parseInt? (text : List Char) : Option Int64 :=
  let (negative, digits) := Decimal.splitSign text
  if digits ≠ [] ∧ digits.all Char.isDigit then
    let magnitude : Int := Decimal.ofDigits digits
    let n := if negative then -magnitude else magnitude
    if Int64.minValue.toInt ≤ n ∧ n ≤ Int64.maxValue.toInt then some (Int64.ofInt n) else none
  else none

def parseFinite? (text : List Char) : Option Double :=
  ((Decimal.parse? text).map Decimal.nearest).filter Double.isFinite

def valueOf (text : List Char) : Value :=
  match parseInt? text with
  | some n => .int n
  | none =>
    match parseFinite? text with
    | some x => .float x
    | none =>
      if text = "true".toList then .bool true
      else if text = "false".toList then .bool false
      else .text (String.ofList text)

end EntityBroker.TableManager
