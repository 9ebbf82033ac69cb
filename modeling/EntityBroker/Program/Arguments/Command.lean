import EntityBroker.CommandLine.Command
import EntityBroker.Program.Arguments.Grammar

/-!
# Arguments

The reader of arguments that the program is built with: a command by its name, and what follows it
by the grammar of the command.
-/

namespace EntityBroker.CommandLine

-- ---------------------------------------------------------------- the grammars of the commands

def managersGrammar : Grammar := ⟨[], [], none⟩

def pathParameter : Parameter := ⟨"path", "<PATH>", false, .nonEmpty⟩

def configGrammar : Grammar := ⟨[], [], some pathParameter⟩

def configOption : Parameter := ⟨"config", "--config <CONFIG>", false, .nonEmpty⟩

def traitOption : Parameter := ⟨"trait", "--trait <TRAITS>", true, .any⟩

/-- The names of the access modes in arguments. -/
def accessNames : List (String × ResolveAccess) :=
  [("read", .read), ("manager-driven", .managerDriven)]

def accessOption : Parameter :=
  ⟨"access", "--access <ACCESS>", false, .oneOf (accessNames.map Prod.fst)⟩

def referencesParameter : Parameter := ⟨"references", "<REFERENCES>...", true, .any⟩

def resolveGrammar : Grammar :=
  ⟨[configOption, traitOption, accessOption], ["fail-fast"], some referencesParameter⟩

-- ---------------------------------------------------------------- reading a command

/-- What a reading of a command asks for, if all that the command requires was given. -/
def invocationOf (command : Given → Option Command) :
    Except UsageFault Reading → Except UsageFault Invocation
  | .error fault => .error fault
  | .ok .help => .ok .help
  | .ok (.given g) =>
    match command g with
    | some c => .ok (.run c)
    | none => .error .argumentsMissing

def configCommand? (g : Given) : Option Command := ((g.allOf "path").head?).map .config

def resolveCommand? (g : Given) : Option Command :=
  let traits := g.allOf "trait"
  let references := g.allOf "references"
  if traits = [] ∨ references = [] then none
  else some (.resolve {
    config := (g.allOf "config").head?
    traits := traits
    access := ((g.allOf "access").head?.bind (List.lookup · accessNames)).getD .read
    failFast := g.flags.contains "fail-fast"
    references := references })

def readCommand? (name : String) (rest : List String) : Option (Except UsageFault Invocation) :=
  let read := fun (grammar : Grammar) (command : Given → Option Command) =>
    some (invocationOf command (grammar.read Given.empty none false rest))
  match name with
  | "managers" => read managersGrammar (fun _ => some .managers)
  | "config" => read configGrammar configCommand?
  | "resolve" => read resolveGrammar resolveCommand?
  | _ => none

def commandNames : List String := ["managers", "config", "resolve"]

/-- Help on a command, or on the help itself; no command has commands of its own. -/
def readHelp : List String → Except UsageFault Invocation
  | [] => .ok .help
  | name :: rest =>
    if (commandNames.contains name || name = "help") then
      match rest with
      | [] => .ok .help
      | next :: _ => .error (.unrecognizedCommand next)
    else .error (.unrecognizedCommand name)

/-- What stands after `--` in place of a command is never one. -/
def readAfterOptions : List String → Except UsageFault Invocation
  | [] => .ok .helpOnNothing
  | name :: _ =>
    if commandNames.contains name || name = "help" then .error (.unexpected name)
    else .error (.unrecognizedCommand name)

def Invocation.ofArguments : List String → Except UsageFault Invocation
  | [] => .ok .helpOnNothing
  | text :: rest =>
    match Argument.ofText text with
    | .endOfOptions => readAfterOptions rest
    | .long name (some value) =>
      if name = "help" ∨ name = "version" then .error (.unexpectedValue value ("--" ++ name))
      else .error (.unexpected ("--" ++ name))
    | .long name none =>
      if name = "help" then .ok .help
      else if name = "version" then .ok .version
      else .error (.unexpected ("--" ++ name))
    | .short letter =>
      if letter = 'h' then .ok .help
      else if letter = 'V' then .ok .version
      else .error (.unexpected (String.ofList ['-', letter]))
    | .word name =>
      if name = "help" then readHelp rest
      else (readCommand? name rest).getD (.error (.unrecognizedCommand name))

def readArguments : ArgumentReader := fun arguments =>
  (Invocation.ofArguments arguments).mapError fun fault => "error: " ++ fault.text

end EntityBroker.CommandLine
