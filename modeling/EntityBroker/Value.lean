import EntityBroker.Json

/-!
# Property values

A property holds one of four types. Two values are the same (`Value.same`) when they have one type
and compare equal in it; a float compares as a number, so a NaN is not the same as itself.
-/

namespace EntityBroker

inductive Value where
  | bool (b : Bool)
  | int (n : Int64)
  | float (x : Double)
  | text (s : String)
  deriving DecidableEq, Inhabited

inductive ValueKind where
  | bool
  | int
  | float
  | text
  deriving DecidableEq

/-- The number that stands for a type in calls between languages. -/
def ValueKind.ordinal : ValueKind → Nat
  | .bool => 1
  | .int => 2
  | .float => 3
  | .text => 4

namespace Value

def kind : Value → ValueKind
  | .bool _ => .bool
  | .int _ => .int
  | .float _ => .float
  | .text _ => .text

def asBool? : Value → Option Bool
  | .bool b => some b
  | _ => none

def asInt? : Value → Option Int64
  | .int n => some n
  | _ => none

def asFloat? : Value → Option Double
  | .float x => some x
  | _ => none

def asText? : Value → Option String
  | .text s => some s
  | _ => none

def same : Value → Value → Bool
  | .bool a, .bool b => a == b
  | .int a, .int b => a == b
  | .float a, .float b => a.same b
  | .text a, .text b => a == b
  | _, _ => false

/-- A float that is no finite number has no JSON number and becomes null. -/
def toJson : Value → Json
  | .bool b => .bool b
  | .int n => .int n.toInt
  | .float x => if x.isFinite then .float x else .null
  | .text s => .str s

end Value

/-- Named values: settings of a manager, or what it tells about itself. -/
abbrev Info := Dict Value

def Info.toJson (info : Info) : Json := Json.ofDict (info.map Value.toJson)

end EntityBroker
