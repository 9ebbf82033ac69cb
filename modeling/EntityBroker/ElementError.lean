/-!
# Errors of one element

In a batch each element succeeds or fails on its own; an element's failure is data with a code and a
message, not the failure of the call.
-/

namespace EntityBroker

inductive ElementErrorCode where
  | unknown
  | invalidEntityReference
  | malformedEntityReference
  | entityAccessError
  | entityResolutionError
  | invalidPreflightHint
  | invalidTraitSet
  deriving DecidableEq, Repr

namespace ElementErrorCode

def all : List ElementErrorCode :=
  [.unknown, .invalidEntityReference, .malformedEntityReference, .entityAccessError,
    .entityResolutionError, .invalidPreflightHint, .invalidTraitSet]

def name : ElementErrorCode → String
  | .unknown => "unknown"
  | .invalidEntityReference => "invalidEntityReference"
  | .malformedEntityReference => "malformedEntityReference"
  | .entityAccessError => "entityAccessError"
  | .entityResolutionError => "entityResolutionError"
  | .invalidPreflightHint => "invalidPreflightHint"
  | .invalidTraitSet => "invalidTraitSet"

end ElementErrorCode

structure ElementError where
  code : ElementErrorCode
  message : String
  deriving DecidableEq, Repr

/-- What became of one element. -/
abbrev Outcome (α : Type) := Except ElementError α

end EntityBroker
