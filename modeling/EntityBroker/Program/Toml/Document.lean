import EntityBroker.Program.Toml.Statement

/-!
# Documents

The table that the statements of a file build. A table is implicit if it was made on the way to
another one, and dotted if a key path of an assignment made it. A header may open an implicit table
that is not dotted, once; an assignment may extend dotted tables only; no key is assigned twice.
-/

namespace EntityBroker.Toml

mutual
inductive Item where
  | value (v : Value)
  | table (t : Table)
  /-- The tables of an array, the last one last. -/
  | tables (ts : List Table)

inductive Table where
  | mk (implicit dotted : Bool) (entries : List (String × Item))
end

namespace Table

def implicit : Table → Bool
  | .mk i _ _ => i

def dotted : Table → Bool
  | .mk _ d _ => d

def entries : Table → List (String × Item)
  | .mk _ _ es => es

def withEntries (t : Table) (es : List (String × Item)) : Table := .mk t.implicit t.dotted es

/-- A table that a header opens. -/
def explicit (es : List (String × Item)) : Table := .mk false false es

def get? (t : Table) (key : String) : Option Item := t.entries.lookup key

def append (t : Table) (key : String) (item : Item) : Table :=
  t.withEntries (t.entries ++ [(key, item)])

/-- Puts an item under a key, in its place if the key is there. -/
def put (t : Table) (key : String) (item : Item) : Table :=
  match t.get? key with
  | none => t.append key item
  | some _ => t.withEntries (t.entries.map fun e => if e.1 = key then (key, item) else e)

def erase (t : Table) (key : String) : Table :=
  t.withEntries (t.entries.filter fun e => e.1 ≠ key)

/-- Changes the last table of an array. -/
def changeLast (f : Table → Option Table) : List Table → Option (List Table)
  | [] => none
  | [last] => (f last).map ([·])
  | t :: rest => (changeLast f rest).map (t :: ·)

/-- Changes the table at a path, making the tables on the way that are not there. A path of an
assignment makes dotted tables and goes through implicit ones only; an array stands for its last
table. -/
def changeAt (dotted : Bool) (f : Table → Option Table) : List String → Table → Option Table
  | [], t => f t
  | k :: path, t =>
    match t.get? k with
    | none => (changeAt dotted f path (.mk true dotted [])).map fun c => t.put k (.table c)
    | some (.table c) =>
      if dotted && !c.implicit then none
      else (changeAt dotted f path c).map fun c => t.put k (.table c)
    | some (.tables ts) =>
      (changeLast (changeAt dotted f path) ts).map fun ts => t.put k (.tables ts)
    | some (.value _) => none

/-- Assigns a value to a new key. A table is extended by the kind of key path that made it. -/
def assignHere (byPath : Bool) (key : String) (v : Value) (t : Table) : Option Table :=
  if t.dotted != byPath then none
  else match t.get? key with
    | some _ => none
    | none => some (t.append key (.value v))

def assign (path : List String) (v : Value) (t : Table) : Option Table :=
  match path.getLast? with
  | none => none
  | some key =>
    let way := path.dropLast
    changeAt true (assignHere (!way.isEmpty) key v) way t

/-- Opens the table under a key, which may be there on the way to another one only. -/
def openHere (key : String) (t : Table) : Option Table :=
  match t.get? key with
  | none => some (t.append key (.table (explicit [])))
  | some (.table c) =>
    if c.implicit && !c.dotted then
      some ((t.erase key).append key (.table (explicit c.entries)))
    else none
  | some _ => none

/-- Opens one more table of the array under a key. -/
def openNextHere (key : String) (t : Table) : Option Table :=
  match t.get? key with
  | none => some (t.append key (.tables [explicit []]))
  | some (.tables ts) => some (t.put key (.tables (ts ++ [explicit []])))
  | some _ => none

end Table

mutual
def Item.toValue : Item → Value
  | .value v => v
  | .table t => .table t.toEntries
  | .tables ts => .array (toValues ts)

def Table.toEntries : Table → List (String × Value)
  | .mk _ _ es => entriesToValues es

def entriesToValues : List (String × Item) → List (String × Value)
  | [] => []
  | (k, item) :: rest => (k, item.toValue) :: entriesToValues rest

def toValues : List Table → List Value
  | [] => []
  | t :: rest => .table t.toEntries :: toValues rest
end

-- ---------------------------------------------------------------- values

/-- The table of an inline table's assignments. -/
def inlineTable? (assignments : List (List String × Value)) : Option Value :=
  (assignments.foldlM (fun t a => Table.assign a.1 a.2 t) (Table.explicit [])).map fun t =>
    .table t.toEntries

/-- A value with at most `depth` levels of arrays and inline tables. -/
def valueTo : Nat → Reader Value
  | depth, '[' :: rest =>
    match depth with
    | 0 => none
    | depth + 1 =>
      (arrayRest (valueTo depth) (rest.length + 1) rest).map fun (vs, rest) => (.array vs, rest)
  | depth, '\x7b' :: rest =>
    match depth with
    | 0 => none
    | depth + 1 => do
      let (assignments, rest) ← inlineAssignments (valueTo depth) rest
      let table ← inlineTable? assignments
      return (table, rest)
  | _, '"' :: rest => (quotedText ('"' :: rest)).map fun (s, rest) => (.text s, rest)
  | _, '\'' :: rest => (quotedText ('\'' :: rest)).map fun (s, rest) => (.text s, rest)
  | _, 't' :: 'r' :: 'u' :: 'e' :: rest => some (.boolean true, rest)
  | _, 'f' :: 'a' :: 'l' :: 's' :: 'e' :: rest => some (.boolean false, rest)
  | _, text =>
    match moment? text with
    | some reader => (reader text).map fun (s, rest) => (.moment s, rest)
    | none => number text

def value : Reader Value := valueTo (nestingLimit - 1)

-- ---------------------------------------------------------------- statements

inductive Statement where
  | openTable (path : List String)
  | openNext (path : List String)
  | assign (path : List String) (v : Value)

/-- One statement and the rest of its line. -/
def statement : Reader Statement
  | '[' :: '[' :: rest => do
    let (path, rest) ← keyPath rest
    let ((), rest) ← expect ']' rest
    let ((), rest) ← expect ']' rest
    return (.openNext path, ← finishLine? rest)
  | '[' :: rest => do
    let (path, rest) ← keyPath rest
    let ((), rest) ← expect ']' rest
    return (.openTable path, ← finishLine? rest)
  | text => do
    let ((path, v), rest) ← assignment value text
    return (.assign path v, ← finishLine? rest)

/-- The statements of a text of at most `fuel` lines. -/
def statementsFrom : Nat → List Char → Option (List Statement)
  | 0, _ => none
  | fuel + 1, text =>
    match skipBlanks text with
    | [] => some []
    | '#' :: rest => (finishLine? ('#' :: rest)).bind (statementsFrom fuel)
    | rest =>
      match lineEnd? rest with
      | some rest => statementsFrom fuel rest
      | none => do
        let (first, rest) ← statement rest
        let more ← statementsFrom fuel rest
        return first :: more

/-- The statements of a text; a byte order mark at its front does not count. -/
def statements (text : List Char) : Option (List Statement) :=
  match text with
  | '\uFEFF' :: rest => statementsFrom (rest.length + 1) rest
  | _ => statementsFrom (text.length + 1) text

/-- The whole table, and the path of the table that is open. -/
structure Building where
  root : Table
  here : List String

/-- Changes the entry that the last key of a path names, in the table that the others lead to. -/
def changeEntry (f : String → Table → Option Table) (path : List String) (root : Table) :
    Option Table :=
  match path.getLast? with
  | none => none
  | some key => Table.changeAt false (f key) path.dropLast root

def Building.step (b : Building) : Statement → Option Building
  | .openTable path => (changeEntry Table.openHere path b.root).map (⟨·, path⟩)
  | .openNext path => (changeEntry Table.openNextHere path b.root).map (⟨·, path⟩)
  | .assign path v =>
    (Table.changeAt false (Table.assign path v) b.here b.root).map (⟨·, b.here⟩)

/-- The entries of the file's table, if the text is a TOML document. -/
def parse? (text : String) : Option (List (String × Value)) := do
  let all ← statements text.toList
  let built ← all.foldlM Building.step ⟨Table.explicit [], []⟩
  return built.root.toEntries

end EntityBroker.Toml
