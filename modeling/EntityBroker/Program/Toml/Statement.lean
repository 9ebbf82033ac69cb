import EntityBroker.Program.Toml.Moment
import EntityBroker.Program.Toml.Number
import EntityBroker.Program.Toml.Text

/-!
# Statements

A file is a list of statements: headers that open a table or one more table of an array, and
assignments of a value to a key path. Arrays and inline tables nest to a limit, and so do key paths.
-/

namespace EntityBroker.Toml

/-- Key paths have fewer keys than this, and values are nested less deep. -/
def nestingLimit : Nat := 80

-- ---------------------------------------------------------------- keys

def isBareChar (c : Char) : Bool := c.isAlphanum || c = '_' || c = '-'

def key (text : List Char) : Option (String × List Char) :=
  match text with
  | '"' :: _ => lineText text
  | '\'' :: _ => lineText text
  | _ =>
    let (bare, rest) := text.span isBareChar
    if bare = [] then none else some (String.ofList bare, rest)

/-- Keys with points between them, blanks around each; at most `fuel` keys. -/
def keysFrom : Nat → Reader (List String)
  | 0, _ => none
  | fuel + 1, text => do
    let (first, rest) ← key (skipBlanks text)
    match skipBlanks rest with
    | '.' :: rest =>
      let (more, rest) ← keysFrom fuel rest
      return (first :: more, rest)
    | rest => return ([first], rest)

def keyPath (text : List Char) : Option (List String × List Char) :=
  keysFrom (nestingLimit - 1) text

-- ---------------------------------------------------------------- arrays

/-- The text without blanks, line ends and comments that end with their line. -/
def skipSpace : Nat → List Char → List Char
  | 0, text => text
  | fuel + 1, text =>
    match skipBlanks text with
    | '#' :: rest =>
      match lineEnd? (skipComment ('#' :: rest)) with
      | some rest => skipSpace fuel rest
      | none => '#' :: rest
    | rest =>
      match lineEnd? rest with
      | some rest => skipSpace fuel rest
      | none => rest

def skipAllSpace (text : List Char) : List Char := skipSpace (text.length + 1) text

/-- Values with commas between them and perhaps one after the last, up to the closing bracket. -/
def arrayRest (value : Reader Value) : Nat → Reader (List Value)
  | 0, _ => none
  | fuel + 1, text =>
    match skipAllSpace text with
    | ']' :: rest => some ([], rest)
    | text => do
      let (first, rest) ← value text
      match skipAllSpace rest with
      | ',' :: rest =>
        let (more, rest) ← arrayRest value fuel rest
        return (first :: more, rest)
      | ']' :: rest => return ([first], rest)
      | _ => none

-- ---------------------------------------------------------------- assignments

/-- A key path, an equals sign and a value. -/
def assignment (value : Reader Value) (text : List Char) :
    Option ((List String × Value) × List Char) := do
  let (path, rest) ← keyPath text
  let ((), rest) ← expect '=' rest
  let (v, rest) ← value (skipBlanks rest)
  return ((path, v), rest)

/-- Assignments with commas between them, up to the closing brace. -/
def inlineRest (value : Reader Value) : Nat → Reader (List (List String × Value))
  | 0, _ => none
  | fuel + 1, text => do
    let (first, rest) ← assignment value text
    match skipBlanks rest with
    | ',' :: rest =>
      let (more, rest) ← inlineRest value fuel rest
      return (first :: more, rest)
    | '\x7d' :: rest => return ([first], rest)
    | _ => none

def inlineAssignments (value : Reader Value) (text : List Char) :
    Option (List (List String × Value) × List Char) :=
  match skipBlanks text with
  | '\x7d' :: rest => some ([], rest)
  | _ => inlineRest value (text.length + 1) text

end EntityBroker.Toml
