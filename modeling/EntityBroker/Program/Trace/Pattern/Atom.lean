import EntityBroker.Program.Trace.Pattern.Flags
import EntityBroker.Program.Toml.Number

/-!
# Atoms

What a character of a pattern stands for, alone or after a backslash. Patterns are matched without
tables of characters. So the case of characters and the kinds of characters are known in ASCII only,
which a pattern has to ask for; and nothing in a pattern may match part of a character.
-/

namespace EntityBroker.CommandLine.Pattern

/-- A kind of characters is the digits, the white space or the characters of words, or all others.
-/
inductive Atom where
  | character (c : Char) (isByte : Bool)
  | kind (isNegated : Bool)
  | anchor
  | wordBoundary

namespace Atom

def isAllowed (flags : Flags) : Atom → Bool
  | .character c isByte =>
    if flags.unicode then !flags.foldsCase else !(isByte && 0x7F < c.toNat)
  | .kind isNegated => !flags.unicode && !isNegated
  | .anchor => true
  | .wordBoundary => !flags.unicode

def isAllowedInClass (flags : Flags) : Atom → Bool
  | .character c _ => if flags.unicode then !flags.foldsCase else c.toNat ≤ 0x7F
  | .kind isNegated => !flags.unicode && !isNegated
  | .anchor => false
  | .wordBoundary => false

-- ---------------------------------------------------------------- escapes

/-- So many hexadecimal digits, and what follows them. Space may stand before each. -/
def hexDigits? (flags : Flags) : Nat → List Char → Option (List Char × List Char)
  | 0, text => some ([], text)
  | width + 1, text =>
    match flags.resume text with
    | [] => none
    | digit :: rest =>
      if Toml.isHexDigit digit then
        (hexDigits? flags width rest).map fun (digits, after) => (digit :: digits, after)
      else none

/-- The character with a code of so many hexadecimal digits, and what follows them. -/
def coded? (flags : Flags) (width : Nat) (text : List Char) : Option (Atom × List Char) :=
  match hexDigits? flags width text with
  | none => none
  | some (digits, after) =>
    let code := Toml.ofDigitsIn 16 digits
    if code.isValidChar then some (.character (Char.ofNat code) (width = 2), after) else none

/-- Characters that a letter after a backslash stands for. -/
def letterEscapes : List (Char × Char) :=
  [('a', '\x07'), ('f', '\x0c'), ('n', '\n'), ('r', '\x0d'), ('t', '\t'), ('v', '\x0b')]

/-- What a character after a backslash stands for, if it needs no more characters. -/
def ofEscape? (c : Char) : Option Atom :=
  if ['d', 's', 'w'].contains c then some (.kind false)
  else if ['D', 'S', 'W'].contains c then some (.kind true)
  else if ['A', 'z'].contains c then some .anchor
  else if ['b', 'B', '<', '>'].contains c then some .wordBoundary
  else
    match letterEscapes.lookup c with
    | some meant => some (.character meant false)
    | none => if c.toNat ≤ 0x7F && !c.isAlphanum then some (.character c false) else none

/-- What a backslash and the text after it stand for, and what follows. -/
def escaped? (flags : Flags) : List Char → Option (Atom × List Char)
  | [] => none
  | 'x' :: rest => coded? flags 2 rest
  | 'u' :: rest => coded? flags 4 rest
  | 'U' :: rest => coded? flags 8 rest
  | c :: rest => (ofEscape? c).map fun atom => (atom, rest)

end Atom

end EntityBroker.CommandLine.Pattern
