import EntityBroker.Dict
import EntityBroker.Double.Basic

/-!
# JSON documents

The tree of a JSON document, integers and floats kept apart. Objects made by `Json.ofDict` have
their keys in increasing order. How a document becomes text is up to a `Json.Printer`.
-/

namespace EntityBroker

inductive Json where
  | null
  | bool (b : Bool)
  | int (n : Int)
  | float (x : Double)
  | str (s : String)
  | arr (items : List Json)
  | obj (entries : List (String × Json))

namespace Json

def ofDict (d : Dict Json) : Json := .obj d.entries

/-- Writes documents as text, on one line or spread over lines for people. Either may fail. -/
structure Printer where
  compact : Json → Option String
  pretty : Json → Option String

end Json

end EntityBroker
