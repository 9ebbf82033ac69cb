import EntityBroker.Double.Decimal
import EntityBroker.Program.Toml.Line

/-!
# Dates and times

A date, a time, or both with or without an offset, in the ranges that the calendar and the clock
allow. What is kept is the canonical text: `T` between date and time, at most nine fraction digits
and no zeros at their end, an offset of zero written with a plus sign.
-/

namespace EntityBroker.Toml

/-- A number of exactly so many decimal digits. -/
def fixedDigits (n : Nat) (text : List Char) : Option (Nat × List Char) :=
  let ds := text.take n
  if ds.length = n ∧ ds.all Char.isDigit then some (Decimal.ofDigits ds, text.drop n) else none

def boundedDigits (n low high : Nat) (text : List Char) : Option (Nat × List Char) :=
  (fixedDigits n text).filter fun (value, _) => low ≤ value && value ≤ high

def expect (c : Char) : Reader Unit
  | d :: rest => if d = c then some ((), rest) else none
  | [] => none

def isLeapYear (year : Nat) : Bool := year % 4 == 0 && (year % 100 != 0 || year % 400 == 0)

def daysIn (year month : Nat) : Nat :=
  if month = 2 then if isLeapYear year then 29 else 28
  else if month = 4 ∨ month = 6 ∨ month = 9 ∨ month = 11 then 30
  else 31

/-- The digits of a number, with zeros in front up to a width. -/
def padded (width n : Nat) : String :=
  let ds := Nat.toDigits 10 n
  String.ofList (List.replicate (width - ds.length) '0' ++ ds)

def date (text : List Char) : Option (String × List Char) := do
  let (year, rest) ← fixedDigits 4 text
  let ((), rest) ← expect '-' rest
  let (month, rest) ← boundedDigits 2 1 12 rest
  let ((), rest) ← expect '-' rest
  let (day, rest) ← boundedDigits 2 1 (daysIn year month) rest
  return (padded 4 year ++ "-" ++ padded 2 month ++ "-" ++ padded 2 day, rest)

/-- Fraction digits of a second, cut to nine; the text for them has no zeros at its end. -/
def secondFraction : List Char → String × List Char
  | '.' :: rest =>
    let (ds, after) := rest.span Char.isDigit
    if ds = [] then ("", '.' :: rest)
    else
      let kept := ((ds.take 9).reverse.dropWhile (· = '0')).reverse
      (if kept = [] then "" else "." ++ String.ofList kept, after)
  | text => ("", text)

def clock (text : List Char) : Option (String × List Char) := do
  let (hour, rest) ← boundedDigits 2 0 23 text
  let ((), rest) ← expect ':' rest
  let (minute, rest) ← boundedDigits 2 0 59 rest
  let ((), rest) ← expect ':' rest
  let (second, rest) ← boundedDigits 2 0 60 rest
  let (fraction, rest) := secondFraction rest
  return (padded 2 hour ++ ":" ++ padded 2 minute ++ ":" ++ padded 2 second ++ fraction, rest)

/-- An offset from the universal time, if there is one. -/
def offset : Reader String
  | [] => some ("", [])
  | c :: rest =>
    if c = 'Z' ∨ c = 'z' then some ("Z", rest)
    else if c = '+' ∨ c = '-' then do
      let (hour, rest) ← boundedDigits 2 0 23 rest
      let ((), rest) ← expect ':' rest
      let (minute, rest) ← boundedDigits 2 0 59 rest
      let sign := if c = '-' ∧ hour + minute ≠ 0 then "-" else "+"
      return (sign ++ padded 2 hour ++ ":" ++ padded 2 minute, rest)
    else some ("", c :: rest)

/-- Whether a text starts the way only a time does. -/
def startsClock (text : List Char) : Bool :=
  match boundedDigits 2 0 23 text with
  | some (_, ':' :: _) => true
  | _ => false

/-- Whether a text starts the way only a date does. -/
def startsDate (text : List Char) : Bool :=
  match fixedDigits 4 text with
  | some (_, '-' :: _) => true
  | _ => false

def isDelimiter (c : Char) : Bool := c = 'T' || c = 't' || c = ' '

/-- A date, and a time after it if one is written there. -/
def dateTime (text : List Char) : Option (String × List Char) := do
  let (day, rest) ← date text
  match rest with
  | [] => return (day, [])
  | c :: after =>
    if isDelimiter c && startsClock after then
      let (time, rest) ← clock after
      let (shift, rest) ← offset rest
      return (day ++ "T" ++ time ++ shift, rest)
    else return (day, rest)

/-- A date, a time or both, for a text that starts with one; `none` otherwise. -/
def moment? (text : List Char) : Option (Reader String) :=
  if startsDate text then some dateTime
  else if startsClock text then some clock
  else none

/-- Whether a text as a whole writes a date-time. -/
def isMoment (text : List Char) : Bool :=
  ((moment? text).bind fun read => read text).any fun (_, rest) => rest.isEmpty

end EntityBroker.Toml
