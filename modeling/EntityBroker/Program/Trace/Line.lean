import EntityBroker.Trace

/-!
# Lines of the log

How the program writes an event of the trace. No character of a line steers a terminal.
-/

namespace EntityBroker

/-- The code of a character in hexadecimal digits, at least two. -/
def hexCode (c : Char) : List Char :=
  let digits := Nat.toDigits 16 c.toNat
  List.replicate (2 - digits.length) '0' ++ digits

/-- Characters that a terminal may take for commands are written as their codes. -/
def shownChar (c : Char) : List Char :=
  if c ∈ ['\x07', '\x08', '\x0c', '\x1b', '\x7f'] then '\\' :: 'x' :: hexCode c
  else if '\u0080' ≤ c && c ≤ '\u009f' then '\\' :: 'u' :: '\x7b' :: hexCode c ++ ['\x7d']
  else [c]

/-- One line of the log: the level, the message and the severity if the event carries one. -/
def TraceEvent.line (e : TraceEvent) : String :=
  let carried := match e.severity with
    | none => ""
    | some s => " severity=\"" ++ s.name ++ "\""
  e.level.name ++ " " ++ String.ofList (e.message.toList.flatMap shownChar) ++ carried

end EntityBroker
