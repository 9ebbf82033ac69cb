import EntityBroker.Boundary.Call
import EntityBroker.Value

/-!
# Dictionaries over the boundary

The calls with which the other side fills and reads a dictionary. Keys and texts come as bytes and
are decoded lossily, so two keys are one if they decode alike.
-/

namespace EntityBroker.Boundary.Dictionary

def nullDictionary : Error := isNull "InfoDictionary handle"

def invalidKey : Error := .make .outOfRange "Invalid key"

def invalidType : Error := .make .badVariantAccess "Invalid value type"

def insufficientStorage : Error := .make .lengthError "Insufficient storage for return value"

/-- A new dictionary, if there is a place to put it. -/
def create (error : Option View) (hasOut : Bool) : Call (Option Info) :=
  guard error none (if hasOut then .ok (some Dict.empty) else .error (isNull "out"))

def size (dict : Option Info) : Nat := (dict.map Dict.size).getD 0

/-- What a dictionary holds under a key, read as one type. -/
def find {α : Type} (dict : Option Info) (key : Text) (extract : Value → Option α) :
    Except Error α :=
  match dict with
  | none => .error nullDictionary
  | some dict =>
    match dict.get? key.decoded with
    | none => .error invalidKey
    | some value =>
      match extract value with
      | none => .error invalidType
      | some found => .ok found

/-- Reads a value into a place that may be missing. -/
def get {α : Type} (extract : Value → Option α) (error : Option View) (out : Option α)
    (dict : Option Info) (key : Text) : Call (Option α) :=
  guard error out <|
    match find dict key extract with
    | .error e => .error e
    | .ok found =>
      match out with
      | none => .error (isNull "out")
      | some _ => .ok (some found)

def typeOf (error : Option View) (out : Option ValueKind) (dict : Option Info) (key : Text) :
    Call (Option ValueKind) :=
  get (fun value => some value.kind) error out dict key

def getBool (error : Option View) (out : Option Bool) (dict : Option Info) (key : Text) :
    Call (Option Bool) :=
  get Value.asBool? error out dict key

def getInt (error : Option View) (out : Option Int64) (dict : Option Info) (key : Text) :
    Call (Option Int64) :=
  get Value.asInt? error out dict key

def getFloat (error : Option View) (out : Option Double) (dict : Option Info) (key : Text) :
    Call (Option Double) :=
  get Value.asFloat? error out dict key

/-- Reads a text. If it does not fit, as much of it as there is room for is written all the same. -/
def getText (error : Option View) (out : Option View) (dict : Option Info) (key : Text) :
    Call (Option View) :=
  match find dict key Value.asText?, out with
  | .error e, _ => guard error out (.error e)
  | .ok _, none => guard error out (.error (isNull "out"))
  | .ok text, some view =>
    let bytes := Utf8.encode text
    let filled := some (view.assign bytes)
    guard error filled (if view.fits bytes then .ok filled else .error insufficientStorage)

/-- Puts a value under a key, in place of what was there. -/
def set (value : Value) (error : Option View) (dict : Option Info) (key : Text) :
    Call (Option Info) :=
  guard error dict <|
    match dict with
    | none => .error nullDictionary
    | some dict => .ok (some (dict.insert key.decoded value))

def setText (text : Text) (error : Option View) (dict : Option Info) (key : Text) :
    Call (Option Info) :=
  set (.text text.decoded) error dict key

end EntityBroker.Boundary.Dictionary
