import EntityBroker.Program.Trace.Pattern.Atom
import EntityBroker.Program.Trace.Pattern.Row

/-!
# Character classes

Sets of characters in brackets: characters, ranges, classes by name, other classes, and operators
between sets. A class that excludes what it holds has to be one of whole characters.
-/

namespace EntityBroker.CommandLine.Pattern

-- ---------------------------------------------------------------- classes by name

def classNames : List String :=
  ["alnum", "alpha", "ascii", "blank", "cntrl", "digit", "graph", "lower", "print", "punct",
    "space", "upper", "word", "xdigit"]

/-- Whether a class by name is negated, and what follows it, its opening bracket being read. -/
def classByName? : List Char → Option (Bool × List Char)
  | ':' :: rest =>
    let isNegated := rest.head? = some '^'
    match (if isNegated then rest.tail else rest).span (· ≠ ':') with
    | (name, ':' :: ']' :: after) =>
      if classNames.contains (String.ofList name) then some (isNegated, after) else none
    | _ => none
  | _ => none

def isNameAllowed (flags : Flags) (isNegated : Bool) : Bool :=
  if flags.unicode then !flags.foldsCase else !isNegated

-- ---------------------------------------------------------------- characters and ranges

def classAtom? (flags : Flags) : List Char → Option (Atom × List Char)
  | [] => none
  | '\\' :: rest => Atom.escaped? flags rest
  | c :: rest => some (.character c false, rest)

/-- Whether these are the ends of a range. -/
def isRange : Atom → Atom → Bool
  | .character first _, .character last _ => first ≤ last
  | _, _ => false

/-- What follows a character or a range of a class. -/
def afterClassItem? (flags : Flags) (text : List Char) : Option (List Char) :=
  match classAtom? flags text with
  | none => none
  | some (first, rest) =>
    if !first.isAllowedInClass flags then none
    else
      match flags.resume rest with
      | '-' :: more =>
        if [some ']', some '-'].contains (flags.ahead more) then some ('-' :: more)
        else
          match classAtom? flags (flags.resume more) with
          | none => none
          | some (last, after) =>
            if last.isAllowedInClass flags && isRange first last then some after else none
      | after => some after

-- ---------------------------------------------------------------- sets

/-- A class being read: the items since the last operator, the depth of what is before it, and
whether nothing but hyphens has been read. -/
structure CharacterSet where
  items : Row
  before : Option Nat
  isFresh : Bool

namespace CharacterSet

def start : CharacterSet := ⟨.empty, none, true⟩

/-- The set with another item, of this depth. -/
def add (set : CharacterSet) (depth : Nat) : CharacterSet :=
  ⟨set.items.add depth, set.before, false⟩

def hyphen (set : CharacterSet) : CharacterSet := { set with items := set.items.add 0 }

def operator (set : CharacterSet) : CharacterSet :=
  ⟨.empty, some (set.items.depthAfter set.before), false⟩

/-- The depth of the class, its brackets included. -/
def depth (set : CharacterSet) : Nat := set.items.depthAfter set.before + 1

end CharacterSet

/-- What follows the opening bracket of a class and the mark that excludes what it holds. -/
def afterBracket? (flags : Flags) (text : List Char) : Option (List Char) :=
  match flags.resume text with
  | '^' :: rest => if flags.unicode then some (flags.resume rest) else none
  | rest => some rest

/-- The depth of the outermost class, and what follows it. The text is read within the set, which is
within the classes around it. -/
def readClass? (flags : Flags) :
    Nat → CharacterSet → List CharacterSet → List Char → Option (Nat × List Char)
  | 0, _, _, _ => none
  | fuel + 1, set, around, text =>
    -- a hyphen or a closing bracket that stands for itself
    let character (next : CharacterSet) (after : List Char) : Option (Nat × List Char) :=
      if (Atom.character '-' false).isAllowedInClass flags then
        readClass? flags fuel next around after
      else none
    match flags.resume text with
    | [] => none
    | ']' :: rest =>
      if set.isFresh && set.items.size = 0 then character (set.add 0) rest
      else
        match around with
        | [] => some (set.depth, rest)
        | outer :: others => readClass? flags fuel (outer.add set.depth) others rest
    | '[' :: rest =>
      match classByName? rest with
      | some (isNegated, after) =>
        if isNameAllowed flags isNegated then readClass? flags fuel (set.add 0) around after
        else none
      | none =>
        match afterBracket? flags rest with
        | some after => readClass? flags fuel .start (set :: around) after
        | none => none
    | c :: rest =>
      if c = '-' && set.isFresh then character set.hyphen rest
      else if ['&', '-', '~'].contains c && rest.head? = some c then
        readClass? flags fuel set.operator around rest.tail
      else
        match afterClassItem? flags (c :: rest) with
        | some after => readClass? flags fuel (set.add 0) around after
        | none => none

/-- The depth of a class, and what follows it, its opening bracket being read. -/
def characterClass? (flags : Flags) (text : List Char) : Option (Nat × List Char) :=
  match afterBracket? flags text with
  | some after => readClass? flags (after.length + 1) .start [] after
  | none => none

end EntityBroker.CommandLine.Pattern
