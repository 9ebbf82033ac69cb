import EntityBroker.Config

/-!
# Lines of a settings file

Blanks, comments and line ends. A reader takes characters off the front of a text; it fails on text
that TOML does not allow, and no reader looks past what it takes but to know where to stop.
-/

namespace EntityBroker.Toml

/-- What was read, and the text after it. -/
abbrev Reader (α : Type) := List Char → Option (α × List Char)

def isBlank (c : Char) : Bool := c = ' ' || c = '\t'

def skipBlanks (text : List Char) : List Char := text.dropWhile isBlank

/-- After a line end: a line feed, with or without a carriage return before it. -/
def lineEnd? : List Char → Option (List Char)
  | '\n' :: rest => some rest
  | '\r' :: '\n' :: rest => some rest
  | _ => none

/-- Characters that may stand in a comment: no control character but the tab. -/
def isCommentChar (c : Char) : Bool := c = '\t' || (' ' ≤ c && c ≠ '\x7f')

/-- The text without a comment at its front, up to the end of the line. -/
def skipComment : List Char → List Char
  | '#' :: rest => rest.dropWhile isCommentChar
  | text => text

/-- After the rest of a line that holds nothing more but a comment. -/
def finishLine? (text : List Char) : Option (List Char) :=
  match skipComment (skipBlanks text) with
  | [] => some []
  | rest => lineEnd? rest

end EntityBroker.Toml
