import EntityBroker.Program.Trace.Letter
import EntityBroker.Program.Trace.Pattern.Flags

/-!
# Openings

What an opening parenthesis begins. Looking around, which also begins so, is not allowed.
-/

namespace EntityBroker.CommandLine.Pattern

/-- A group with a name or without, or a change of the flags of the group around it. -/
inductive Opening where
  | group (name : Option (List Char)) (flags : Flags)
  | change (flags : Flags)

namespace Opening

def isGroupName : List Char → Bool
  | [] => false
  | first :: rest =>
    (first = '_' || isLetter first) &&
      rest.all fun c => isLetterOrNumber c || ['_', '.', '[', ']'].contains c

def named? (flags : Flags) (text : List Char) : Option (Opening × List Char) :=
  match text.span (· ≠ '>') with
  | (name, '>' :: after) =>
    if isGroupName name then some (.group (some name) flags, after) else none
  | _ => none

def flagged? (flags : Flags) (text : List Char) : Option (Opening × List Char) :=
  let (letters, rest) := text.span fun c => c ≠ ':' && c ≠ ')'
  if !Flags.areLetters letters then none
  else
    match rest with
    | ':' :: after => some (.group none (flags.change letters), after)
    | ')' :: after => if letters = [] then none else some (.change (flags.change letters), after)
    | _ => none

/-- What an opening parenthesis begins by the text after it, and what follows. -/
def ofText? (flags : Flags) (text : List Char) : Option (Opening × List Char) :=
  match flags.resume text with
  | '?' :: '<' :: '=' :: _ => none
  | '?' :: '<' :: '!' :: _ => none
  | '?' :: '<' :: rest => named? flags rest
  | '?' :: 'P' :: '<' :: rest => named? flags rest
  | '?' :: rest => flagged? flags rest
  | rest => some (.group none flags, rest)

end Opening

end EntityBroker.CommandLine.Pattern
