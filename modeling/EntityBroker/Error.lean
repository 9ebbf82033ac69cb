import EntityBroker.ElementError

/-!
# Errors of a call

The one error that calls answer with: a kind, and what is known besides. `Error.shown` is its text;
kinds that carry a complete message of their own are shown without the kind. Modules that find
faults of their own kind have a type for them and say there how a fault becomes an error.
-/

namespace EntityBroker

inductive ErrorKind where
  | internal
  | usage
  | inputValidation
  | configuration
  | notImplemented
  | unhandled
  | batchElement
  | unknown
  | exception
  | outOfRange
  | lengthError
  | badVariantAccess
  | io
  deriving DecidableEq, Repr

namespace ErrorKind

def all : List ErrorKind :=
  [.internal, .usage, .inputValidation, .configuration, .notImplemented, .unhandled,
    .batchElement, .unknown, .exception, .outOfRange, .lengthError, .badVariantAccess, .io]

def name : ErrorKind → String
  | .internal => "Internal"
  | .usage => "Usage"
  | .inputValidation => "InputValidation"
  | .configuration => "Configuration"
  | .notImplemented => "NotImplemented"
  | .unhandled => "Unhandled"
  | .batchElement => "BatchElement"
  | .unknown => "Unknown"
  | .exception => "Exception"
  | .outOfRange => "OutOfRange"
  | .lengthError => "LengthError"
  | .badVariantAccess => "BadVariantAccess"
  | .io => "Io"

/-- The exit code of a program that ends with an error of this kind. -/
def exitCode : ErrorKind → Nat
  | .internal => 1
  | .usage => 2
  | .inputValidation => 3
  | .configuration => 4
  | .notImplemented => 5
  | .unhandled => 6
  | .batchElement => 7
  | .unknown => 8
  | .exception => 9
  | .outOfRange => 10
  | .lengthError => 11
  | .badVariantAccess => 12
  | .io => 13

/-- Whether a message of this kind is the whole text of its error. -/
def messageIsComplete : ErrorKind → Bool
  | .batchElement | .unknown | .exception | .outOfRange | .lengthError | .badVariantAccess => true
  | _ => false

end ErrorKind

structure Error where
  kind : ErrorKind
  message : Option String
  path : Option String
  /-- The batch index that failed. -/
  index : Option Nat
  element : Option ElementError
  /-- The texts of the errors behind this one, the nearest first. -/
  causes : List String
  deriving DecidableEq

namespace Error

def ofKind (kind : ErrorKind) : Error := ⟨kind, none, none, none, none, []⟩

def withMessage (e : Error) (message : String) : Error := { e with message := some message }

def withPath (e : Error) (path : String) : Error := { e with path := some path }

def withCause (e : Error) (cause : String) : Error := { e with causes := [cause] }

def make (kind : ErrorKind) (message : String) : Error := (ofKind kind).withMessage message

def notImplemented (message : String) : Error := make .notImplemented message

def inputValidation (message : String) : Error := make .inputValidation message

def configuration (message : String) : Error := make .configuration message

def shown (e : Error) : String :=
  match e.kind.messageIsComplete, e.message with
  | true, some message => message
  | _, _ =>
    let message := match e.message with
      | none => ""
      | some message => ": " ++ message
    let path := match e.path with
      | none => ""
      | some path => " (path: " ++ path ++ ")"
    e.kind.name ++ message ++ path

def exitCode (e : Error) : Nat := e.kind.exitCode

end Error

end EntityBroker
