import EntityBroker.Program.Toml.Document

/-!
# The section of the manager

The reader of settings files that the program is built with. What a file holds besides the section
does not matter, as long as the whole of it can be read.
-/

namespace EntityBroker.Toml

/-- The key under which a date-time goes where entries of a table are wanted. -/
def momentKey : String := "$__toml_private_datetime"

/-- Whether a table stands for a date-time, as one does whose first key is `momentKey`, and then
whether it has a date-time there. -/
def momentTable? : List (String × Value) → Option Bool
  | [] => none
  | (key, v) :: _ =>
    if key = momentKey then
      match v with
      | .text s => some (isMoment s.toList)
      | _ => some false
    else none

mutual
/-- Whether every table in a value that stands for a date-time has one. What follows the date-time
in such a table does not matter. -/
def isSound : Value → Bool
  | .array items => areSound items
  | .table entries =>
    match momentTable? entries with
    | some sound => sound
    | none => haveSound entries
  | _ => true

def areSound : List Value → Bool
  | [] => true
  | v :: rest => isSound v && areSound rest

def haveSound : List (String × Value) → Bool
  | [] => true
  | (_, v) :: rest => isSound v && haveSound rest
end

def wrongType (what : String) : String := s!"the {what} of the manager has a wrong type"

def identifierOf : Option Value → Except String String
  | none => .ok ""
  | some (.text s) => .ok s
  | some _ => .error (wrongType "identifier")

def settingsOf : Option Value → Except String (Dict Value)
  | none => .ok Dict.empty
  | some (.table entries) =>
    if haveSound entries then .ok (Dict.ofList entries) else .error "a date-time is not valid"
  | some (.moment canonical) => .ok (Dict.ofList [(momentKey, .text canonical)])
  | some _ => .error (wrongType "table of settings")

def readEntries (identifier settings : Option Value) : Except String Config.Section := do
  return ⟨← identifierOf identifier, ← settingsOf settings⟩

/-- The section is a table, or a list of what it holds in order; a date-time holds nothing of it. -/
def sectionOf : Option Value → Except String Config.Section
  | none => .ok ⟨"", Dict.empty⟩
  | some (.table entries) => readEntries (entries.lookup "identifier") (entries.lookup "settings")
  | some (.array items) => readEntries items[0]? items[1]?
  | some (.moment _) => .ok ⟨"", Dict.empty⟩
  | some _ => .error (wrongType "section")

def readSection : Config.Reader := fun text =>
  match parse? text with
  | none => .error "not a TOML document"
  | some entries => sectionOf (entries.lookup "manager")

end EntityBroker.Toml
