import EntityBroker.Program.Trace.Pattern.CharacterClass
import EntityBroker.Program.Trace.Pattern.Opening
import EntityBroker.Double.Decimal

/-!
# Patterns for values

Which texts a directive may give as the value of a field: numbers, and regular expressions. Back
references are refused, and so are patterns that nest too deep. As no closing brace stands in such a
text, no opening brace may stand for itself in it unless a backslash precedes it or a class holds
it.
-/

namespace EntityBroker.CommandLine.Pattern

-- ---------------------------------------------------------------- groups

/-- A group being read, or the whole pattern: its flags, the items since the last bar, the depth of
the deepest branch before it, and the depth of the last item, if that can be repeated. -/
structure Group where
  flags : Flags
  branch : Row
  before : Option Nat
  last : Option Nat

namespace Group

def start (flags : Flags) : Group := ⟨flags, .empty, none, none⟩

def depth (group : Group) : Nat := group.branch.depthAfter group.before

/-- The group with another item, of this depth. -/
def add (group : Group) (depth : Nat) : Group :=
  { group with branch := group.branch.add depth, last := some depth }

/-- The group with its last item, which had this depth, repeated. -/
def repeatLast (group : Group) (depth : Nat) : Group :=
  let branch := { group.branch with deepest := max group.branch.deepest (depth + 1) }
  { group with branch := branch, last := some (depth + 1) }

/-- A change of flags is an item that cannot be repeated. -/
def change (group : Group) (flags : Flags) : Group :=
  { group with flags := flags, branch := group.branch.add 0, last := none }

def bar (group : Group) : Group :=
  let deepest := max (group.before.getD 0) group.branch.depth
  { group with branch := .empty, before := some deepest, last := none }

end Group

-- ---------------------------------------------------------------- patterns

/-- What has been read of a pattern: the group that is open, those around it, and the names given to
groups. -/
structure Progress where
  group : Group
  around : List Group
  names : List (List Char)

namespace Progress

def start : Progress := ⟨.start .start, [], []⟩

def add (p : Progress) (depth : Nat) : Progress := { p with group := p.group.add depth }

def atom? (p : Progress) (atom : Atom) : Option Progress :=
  if atom.isAllowed p.group.flags then some (p.add 0) else none

/-- No two groups have one name. -/
def open? (p : Progress) : Opening → Option Progress
  | .change flags => some { p with group := p.group.change flags }
  | .group none flags => some ⟨.start flags, p.group :: p.around, p.names⟩
  | .group (some name) flags =>
    if p.names.contains name then none
    else some ⟨.start flags, p.group :: p.around, name :: p.names⟩

def close? (p : Progress) : Option Progress :=
  match p.around with
  | [] => none
  | outer :: others => some ⟨outer.add (p.group.depth + 1), others, p.names⟩

/-- What a character that is read does, and what follows. A question mark after a sign of repetition
belongs to the sign. -/
def step? (p : Progress) (c : Char) (rest : List Char) : Option (Progress × List Char) :=
  let flags := p.group.flags
  if c = '(' then
    match Opening.ofText? flags rest with
    | some (opening, after) => (p.open? opening).map fun next => (next, after)
    | none => none
  else if c = ')' then p.close?.map fun next => (next, rest)
  else if c = '|' then some ({ p with group := p.group.bar }, rest)
  else if c = '*' ∨ c = '+' ∨ c = '?' then
    p.group.last.map fun depth =>
      let after := if rest.head? = some '?' then rest.tail else rest
      ({ p with group := p.group.repeatLast depth }, after)
  else if c = '\x7b' then none
  else if c = '[' then
    (characterClass? flags rest).map fun (depth, after) => (p.add depth, after)
  else if c = '\\' then
    match Atom.escaped? flags rest with
    | some (atom, after) => (p.atom? atom).map fun next => (next, after)
    | none => none
  else if c = '^' ∨ c = '$' then (p.atom? .anchor).map fun next => (next, rest)
  else if c = '.' then if flags.unicode then some (p.add 0, rest) else none
  else (p.atom? (.character c false)).map fun next => (next, rest)

end Progress

/-- The depth of a pattern that goes on so. -/
def depth? : Nat → Progress → List Char → Option Nat
  | 0, _, _ => none
  | fuel + 1, p, text =>
    match p.group.flags.resume text with
    | [] => if p.around.isEmpty then some p.group.depth else none
    | c :: rest =>
      match p.step? c rest with
      | some (next, after) => depth? fuel next after
      | none => none

def greatestDepth : Nat := 250

def isPattern (text : List Char) : Bool :=
  match depth? (text.length + 1) .start text with
  | some depth => depth ≤ greatestDepth
  | none => false

-- ---------------------------------------------------------------- values

/-- Whether a text is a number with a plus sign. Other numbers are patterns as well. -/
def isSignedNumber (text : List Char) : Bool :=
  (Decimal.parse? text).isSome ||
    ["+inf", "+infinity", "+nan"].contains (String.ofList text).toLower

def isValue (text : List Char) : Bool :=
  if text.head? = some '+' then isSignedNumber text else isPattern text

end EntityBroker.CommandLine.Pattern
