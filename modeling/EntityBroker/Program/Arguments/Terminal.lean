/-!
# What a terminal shows

Control sequences steer a terminal and are no text. `visible` is a text without them and without
control characters, blanks and line ends apart. Nothing is shown of a sequence that the text does
not end; a line end inside a sequence that is no string breaks it off.
-/

namespace EntityBroker.CommandLine

/-- Where a text stands between and in control sequences. -/
inductive TerminalState where
  | text
  | escape
  | escapeMore
  | control
  | command
  | deviceStart
  | deviceNumbers
  | deviceMore
  /-- In a string of which nothing is shown. -/
  | hidden
  deriving DecidableEq, Repr

/-- Control characters that lay text out. -/
def isLayout (c : Char) : Bool := c = '\t' || c = '\n' || c = '\x0c' || c = '\r'

def isVisible (c : Char) : Bool := isLayout c || (' ' ≤ c && c ≠ '\x7f')

def isIntermediate (c : Char) : Bool := ' ' ≤ c && c ≤ '/'

/-- A string ends with a character that has the byte of the string terminator in it. -/
def endsHidden (c : Char) : Bool := (String.utf8EncodeChar c).contains 0x9C

namespace TerminalState

def afterEscape (c : Char) : TerminalState :=
  if c = '[' then .control
  else if c = ']' then .command
  else if c = 'P' then .deviceStart
  else if c = 'X' || c = '^' || c = '_' then .hidden
  else if isIntermediate c then .escapeMore
  else if '0' ≤ c && c ≤ '~' then .text
  else .escape

/-- The state after a character that is not shown, neither begins a sequence nor cancels one. -/
def skip (s : TerminalState) (c : Char) : TerminalState :=
  match s with
  | .text => .text
  | .escape => afterEscape c
  | .escapeMore => if '0' ≤ c && c ≤ '~' then .text else s
  | .control => if '@' ≤ c && c ≤ '~' then .text else s
  | .command => if c = '\x07' then .text else s
  | .deviceStart =>
    if isIntermediate c then .deviceMore
    else if '0' ≤ c && c ≤ '?' then .deviceNumbers
    else if '@' ≤ c && c ≤ '~' then .hidden
    else s
  | .deviceNumbers =>
    if isIntermediate c then .deviceMore else if '<' ≤ c && c ≤ '~' then .hidden else s
  | .deviceMore => if '0' ≤ c && c ≤ '~' then .hidden else s
  | .hidden => if endsHidden c then .text else s

/-- Whether a character is shown, where none begins or cancels a sequence. -/
def shows (s : TerminalState) (c : Char) : Bool :=
  match s with
  | .text => isVisible c
  | .escape | .escapeMore | .control => isLayout c
  | _ => false

/-- What is shown of a text that goes on from a state. -/
def visible (s : TerminalState) : List Char → List Char
  | [] => []
  | c :: rest =>
    if c = '\x1b' then visible .escape rest
    else if c = '\x18' ∨ c = '\x1a' then visible .text rest
    else if s.shows c then c :: visible .text rest
    else visible (s.skip c) rest

end TerminalState

def visible (text : String) : String := String.ofList (TerminalState.text.visible text.toList)

end EntityBroker.CommandLine
