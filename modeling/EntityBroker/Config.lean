import EntityBroker.Error
import EntityBroker.FileTree
import EntityBroker.Utf8
import EntityBroker.Value

/-!
# The default manager's configuration

A file names the default manager and its settings. Settings are booleans, numbers and texts; in
texts a placeholder stands for the directory of the file. How the text of a file is read is not
decided here: everything below takes a `Config.Reader`, which finds the section of the manager or
says why there is none.
-/

namespace EntityBroker

/-- What a key of a settings file can hold. A date-time is kept as its canonical text. -/
inductive Toml.Value where
  | text (s : String)
  | integer (n : Int64)
  | float (x : Double)
  | boolean (b : Bool)
  | moment (canonical : String)
  | array (items : List Value)
  | table (entries : List (String × Value))
  deriving Inhabited

structure DefaultConfig where
  identifier : String
  settings : Info

namespace Config

/-- The environment variable with the path of the file. -/
def pathVariable : String := "ASSETIO_DEFAULT_CONFIG"

def directoryPlaceholder : String := "${config_dir}"

/-- What a file says of its manager. What it leaves out is empty. -/
structure Section where
  identifier : String
  settings : Dict Toml.Value

/-- Finds the section of the manager in the text of a file, or tells why the text cannot be read. -/
abbrev Reader := String → Except String Section

inductive Fault where
  | missing (path : String)
  | isDirectory (path : String)
  | notText (path : String)
  | notReadable (cause : String)
  | unsupported (key : String)

def Fault.toError : Fault → Error
  | .missing path => .inputValidation
      s!"Could not load default manager config from '{path}', file does not exist."
  | .isDirectory path => .inputValidation
      (s!"Could not load default manager config from '{path}', " ++
        "must be a TOML file not a directory.")
  | .notText path => ((Error.make .io "failed to read config file").withPath path).withCause
      "stream did not contain valid UTF-8"
  | .notReadable cause => .configuration s!"Error parsing config file. {cause}"
  | .unsupported key => .configuration s!"Unsupported value type for '{key}'."

-- ---------------------------------------------------------------- the placeholder

/-- Puts `replacement` for each occurrence of `pattern`, from left to right; what is put in is not
looked at again. `skip` characters belong to an occurrence that was replaced. -/
def replaceFrom (pattern replacement : List Char) : Nat → List Char → List Char
  | _, [] => []
  | skip + 1, _ :: rest => replaceFrom pattern replacement skip rest
  | 0, c :: rest =>
    if pattern.isPrefixOf (c :: rest) then
      replacement ++ replaceFrom pattern replacement (pattern.length - 1) rest
    else c :: replaceFrom pattern replacement 0 rest

def expand (directory text : String) : String :=
  String.ofList (replaceFrom directoryPlaceholder.toList directory.toList 0 text.toList)

-- ---------------------------------------------------------------- settings

def valueOf (directory key : String) : Toml.Value → Except Fault Value
  | .integer n => .ok (.int n)
  | .float x => .ok (.float x)
  | .boolean b => .ok (.bool b)
  | .text s => .ok (.text (expand directory s))
  | _ => .error (.unsupported key)

/-- The values of all entries, or the fault of the first that has none. -/
def valuesOf (directory : String) :
    List (String × Toml.Value) → Except Fault (List (String × Value))
  | [] => .ok []
  | (key, v) :: rest =>
    match valueOf directory key v with
    | .error fault => .error fault
    | .ok value => (valuesOf directory rest).map ((key, value) :: ·)

/-- The settings of a table, its keys taken in increasing order. -/
def infoOf (directory : String) (table : Dict Toml.Value) : Except Fault Info :=
  (valuesOf directory table.entries).map Dict.ofList

def ofText (read : Reader) (directory text : String) : Except Fault DefaultConfig :=
  match read text with
  | .error cause => .error (.notReadable cause)
  | .ok part => (infoOf directory part.settings).map (⟨part.identifier, ·⟩)

/-- The configuration in what was found at a path. -/
def ofFound (read : Reader) (path : String) : Found → Except Fault DefaultConfig
  | .missing => .error (.missing path)
  | .directory => .error (.isDirectory path)
  | .file content directory =>
    match Utf8.decode content with
    | .error _ => .error (.notText path)
    | .ok text => ofText read directory text

def load (read : Reader) (find : String → Found) (path : String) : Except Error DefaultConfig :=
  (ofFound read path (find path)).mapError Fault.toError

end Config

end EntityBroker
