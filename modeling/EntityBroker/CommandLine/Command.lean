import EntityBroker.Access
import EntityBroker.CommandLine.Space
import EntityBroker.TableManager.Cell

/-!
# Commands

What the program can be asked to do: list the managers, show a configuration, or resolve references;
or to print its help or version. How that is read from arguments is up to an `ArgumentReader`. Of
what the reader says about arguments that it cannot read, one line is kept (`usageSummary`).
-/

namespace EntityBroker.CommandLine

structure ResolveCommand where
  config : Option String
  traits : List String
  access : ResolveAccess
  failFast : Bool
  references : List String

inductive Command where
  | managers
  | config (path : String)
  | resolve (c : ResolveCommand)

/-- What the arguments ask for. -/
inductive Invocation where
  | run (command : Command)
  | version
  /-- Help that was asked for. -/
  | help
  /-- Help for want of a command. -/
  | helpOnNothing

/-- Reads what arguments ask for, or tells at length what is wrong with them. -/
abbrev ArgumentReader := List String → Except String Invocation

/-- The word that may stand in front of what is wrong. -/
def faultWord : List Char := "error:".toList

/-- The first line that is not blank, without white space around it and the word in front. -/
def usageSummary (text : String) : String :=
  match ((TableManager.lines text).map trim).find? (· ≠ []) with
  | none => "invalid arguments"
  | some line =>
    if faultWord.isPrefixOf line then String.ofList (trim (line.drop faultWord.length))
    else String.ofList line

end EntityBroker.CommandLine
