import EntityBroker.Boundary.View
import EntityBroker.Error
import EntityBroker.Manager

/-!
# Calls over the boundary

No error crosses the boundary as such: a call ends with a code, and a text in the error view.
`guard` turns what happened inside into the two, `throwIfError` turns the two back into an error on
the other side. Three kinds of error have codes of their own and cross with their bare message; all
others cross as an exception with their full text.
-/

namespace EntityBroker.Boundary

inductive Code where
  | ok
  | unknown
  | exception
  | outOfRange
  | lengthError
  | badVariantAccess
  deriving DecidableEq, Repr

namespace Code

def all : List Code := [.ok, .unknown, .exception, .outOfRange, .lengthError, .badVariantAccess]

def raw : Code → Int
  | .ok => 0
  | .unknown => 1
  | .exception => 2
  | .outOfRange => 3
  | .lengthError => 4
  | .badVariantAccess => 5

def ofRaw? (n : Int) : Option Code := all.find? (fun c => c.raw == n)

def name : Code → String
  | .ok => "Ok"
  | .unknown => "Unknown"
  | .exception => "Exception"
  | .outOfRange => "OutOfRange"
  | .lengthError => "LengthError"
  | .badVariantAccess => "BadVariantAccess"

/-- The kind of the error that a code stands for. -/
def errorKind : Code → ErrorKind
  | .ok => .unknown
  | .unknown => .unknown
  | .exception => .exception
  | .outOfRange => .outOfRange
  | .lengthError => .lengthError
  | .badVariantAccess => .badVariantAccess

/-- The code with which errors of a kind cross, if the kind has one of its own. -/
def ofKind? : ErrorKind → Option Code
  | .outOfRange => some .outOfRange
  | .lengthError => some .lengthError
  | .badVariantAccess => some .badVariantAccess
  | _ => none

end Code

-- ---------------------------------------------------------------- from a code to an error

/-- Codes without a meaning are as good as unknown. -/
def errorOfCode (code : Int) (text : String) : Error :=
  .make (((Code.ofRaw? code).map Code.errorKind).getD .unknown) (s!"{code}: " ++ text)

def throwIfError (code : Int) (error : View) : Except Error Unit :=
  if code = Code.ok.raw then .ok () else .error (errorOfCode code error.text)

-- ---------------------------------------------------------------- from what happened to a code

def crashText : String := "Unknown non-exception object thrown"

/-- The code for what happened, and the text for the error view unless there is nothing to say. -/
def describe : Answer Code → Code × Option String
  | .ok code => (code, none)
  | .error e => (.exception, some e.shown)
  | .crash => (.unknown, some crashText)

def report (error : View) : Option String → View
  | none => error
  | some text => error.assignText text

/-- The code of a call that may fail or crash, with the text written to the error view. -/
def catchAsCode (error : View) (happened : Answer Code) : Code × View :=
  let (code, text) := describe happened
  (code, report error text)

/-- What a call over the boundary leaves: its code, the error view if one was passed, and what the
call may write to. -/
structure Call (α : Type) where
  code : Int
  error : Option View
  out : α

/-- How an error crosses: by the code of its kind and its bare message, or as an exception. -/
def crossing (e : Error) : Code × String :=
  match Code.ofKind? e.kind with
  | some code => (code, e.message.getD "")
  | none => (.exception, e.shown)

/-- Ends a call: if it succeeded, `out` becomes what it made, else `out` stays as it was before.
That is right because what is guarded writes to `out` as its last step, after all that can fail. The
one call that writes first and fails then is `Dictionary.getText`; it passes what it wrote as
`before`.
-/
def guard {α : Type} (error : Option View) (before : α) : Answer α → Call α
  | .ok out => ⟨Code.ok.raw, error, out⟩
  | .error e =>
    let (code, text) := crossing e
    ⟨code.raw, error.map (·.assignText text), before⟩
  | .crash => ⟨Code.unknown.raw, error.map (·.assignText crashText), before⟩

def isNull (what : String) : Error := .make .usage s!"{what} is null"

/-- Asks what the handle stands for; a null handle is an error with this name in it. -/
def ask {σ α : Type} (name : String) (handle : Option σ) (question : σ → Answer α) : Answer α :=
  match handle with
  | none => .error (isNull name)
  | some target => question target

/-- Ends a call that writes text. The text is cut to the room there is, and that is no error. -/
def guardText (error out : Option View) : Answer String → Call (Option View)
  | .ok text =>
    match out with
    | none => guard error none (.error (isNull "out"))
    | some view => guard error out (.ok (some (view.assignText text)))
  | .error e => guard error out (.error e)
  | .crash => guard error out .crash

/-- Ends a call that replaces a dictionary. -/
def guardInfo (error : Option View) (out : Option Info) : Answer Info → Call (Option Info)
  | .ok info =>
    match out with
    | none => guard error none (.error (isNull "out"))
    | some _ => guard error out (.ok (some info))
  | .error e => guard error out (.error e)
  | .crash => guard error out .crash

end EntityBroker.Boundary
