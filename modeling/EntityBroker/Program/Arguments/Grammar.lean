import EntityBroker.Program.Arguments.Terminal

/-!
# The grammar of arguments

How the words after a command are read as options with a value, flags and positional values. A value
is checked when the next argument that belongs to the grammar is met, or at the end; an argument
that does not belong to it is an error at once, whatever waits to be checked. After `--` all words
are positional.
-/

namespace EntityBroker.CommandLine

inductive UsageFault where
  | unrecognizedCommand (name : String)
  | unexpected (argument : String)
  | unexpectedValue (value label : String)
  | valueRequired (label : String)
  | invalidValue (value label : String)
  | repeated (label : String)
  | argumentsMissing
  deriving DecidableEq

/-- The text of a fault, with what is visible of the arguments in it. -/
def UsageFault.text : UsageFault → String
  | .unrecognizedCommand name => s!"unrecognized subcommand '{visible name}'"
  | .unexpected argument => s!"unexpected argument '{visible argument}' found"
  | .unexpectedValue value label =>
    s!"unexpected value '{visible value}' for '{label}' found; no more were expected"
  | .valueRequired label => s!"a value is required for '{label}' but none was supplied"
  | .invalidValue value label => s!"invalid value '{visible value}' for '{label}'"
  | .repeated label => s!"the argument '{label}' cannot be used multiple times"
  | .argumentsMissing => "the following required arguments were not provided:"

-- ---------------------------------------------------------------- single arguments

inductive Argument where
  /-- `--` alone. -/
  | endOfOptions
  /-- `--name`, perhaps with a value after an equals sign. -/
  | long (name : String) (value : Option String)
  /-- One dash and letters; only the first one matters. -/
  | short (letter : Char)
  | word (text : String)
  deriving DecidableEq

def Argument.ofText (text : String) : Argument :=
  match text.toList with
  | ['-', '-'] => .endOfOptions
  | '-' :: '-' :: rest =>
    let name := String.ofList (rest.takeWhile (· ≠ '='))
    match rest.dropWhile (· ≠ '=') with
    | _ :: value => .long name (some (String.ofList value))
    | [] => .long name none
  | '-' :: letter :: _ => .short letter
  | _ => .word text

-- ---------------------------------------------------------------- grammars

/-- What may be given as a value. -/
inductive ValueRule where
  | any
  | nonEmpty
  | oneOf (names : List String)

def ValueRule.check (rule : ValueRule) (label value : String) : Option UsageFault :=
  match rule with
  | .any => none
  | .nonEmpty => if value = "" then some (.valueRequired label) else none
  | .oneOf names =>
    if value = "" then some (.valueRequired label)
    else if names.contains value then none
    else some (.invalidValue value label)

/-- An argument with values: an option, or the positional one. -/
structure Parameter where
  name : String
  label : String
  /-- Whether it may be given more than once. -/
  many : Bool
  rule : ValueRule

structure Grammar where
  options : List Parameter
  flags : List String
  positional : Option Parameter

/-- What was given: values by parameter in the order of the arguments, and flags. -/
structure Given where
  values : List (String × String)
  flags : List String

def Given.empty : Given := ⟨[], []⟩

def Given.allOf (g : Given) (p : String) : List String :=
  (g.values.filter fun v => v.1 = p).map Prod.snd

/-- How reading ends: with what was given, or with a call for help. -/
inductive Reading where
  | given (g : Given)
  | help

/-- A parameter whose values were read but not checked yet. -/
structure Pending where
  parameter : Parameter
  values : List String

def checkAll (p : Parameter) : List String → Option UsageFault
  | [] => none
  | value :: rest => p.rule.check p.label value <|> checkAll p rest

/-- Takes in the values that wait to be checked. -/
def Given.settle (g : Given) : Option Pending → Except UsageFault Given
  | none => .ok g
  | some ⟨p, values⟩ =>
    if values = [] then .error (.valueRequired p.label)
    else if !p.many && g.allOf p.name ≠ [] then .error (.repeated p.label)
    else match checkAll p values with
      | some fault => .error fault
      | none => .ok { g with values := g.values ++ values.map fun value => (p.name, value) }

/-- Takes in a flag after the values that wait. -/
def Given.settleFlag (g : Given) (pending : Option Pending) (name : String) :
    Except UsageFault Given := do
  let g ← g.settle pending
  if g.flags.contains name then .error (.repeated ("--" ++ name))
  else .ok { g with flags := g.flags ++ [name] }

/-- Takes in one more positional value. A value after the last one that the grammar has room for is
unexpected, whatever waits. -/
def positionalValue (grammar : Grammar) (g : Given) (pending : Option Pending) (text : String) :
    Except UsageFault (Given × Option Pending) :=
  match grammar.positional with
  | none => .error (.unexpected text)
  | some p =>
    match pending with
    | some ⟨q, values⟩ =>
      if q.name = p.name then
        if p.many then .ok (g, some ⟨p, values ++ [text]⟩) else .error (.unexpected text)
      else if !p.many && g.allOf p.name ≠ [] then .error (.unexpected text)
      else (g.settle pending).map fun g => (g, some ⟨p, [text]⟩)
    | none =>
      if !p.many && g.allOf p.name ≠ [] then .error (.unexpected text)
      else .ok (g, some ⟨p, [text]⟩)

/-- Reads arguments; `positionalOnly` after the end of the options. -/
def Grammar.read (grammar : Grammar) (g : Given) (pending : Option Pending)
    (positionalOnly : Bool) : List String → Except UsageFault Reading
  | [] => (g.settle pending).map .given
  | text :: rest =>
    let word := fun () => do
      let (g, pending) ← positionalValue grammar g pending text
      grammar.read g pending positionalOnly rest
    if positionalOnly then word ()
    else match Argument.ofText text with
      | .endOfOptions => grammar.read g pending true rest
      | .short letter =>
        if letter = 'h' then (g.settle pending).map fun _ => .help
        else .error (.unexpected (String.ofList ['-', letter]))
      | .long name value =>
        match grammar.options.find? (fun p => p.name = name), value with
        | some p, some value => do
          let g ← g.settle pending
          let g ← g.settle (some ⟨p, [value]⟩)
          grammar.read g none false rest
        | some p, none => do
          let g ← g.settle pending
          grammar.read g (some ⟨p, []⟩) false rest
        | none, value =>
          if name = "help" || grammar.flags.contains name then
            match value with
            | some value => .error (.unexpectedValue value ("--" ++ name))
            | none =>
              if name = "help" then (g.settle pending).map fun _ => .help
              else do
                let g ← g.settleFlag pending name
                grammar.read g none false rest
          else .error (.unexpected ("--" ++ name))
      | .word _ =>
        match pending with
        | some ⟨p, []⟩ => grammar.read g (some ⟨p, [text]⟩) false rest
        | _ => word ()

end EntityBroker.CommandLine
