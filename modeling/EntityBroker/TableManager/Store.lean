import EntityBroker.EntityReference
import EntityBroker.TableManager.Cell
import EntityBroker.TraitsData

/-!
# The store of entities

A store maps references to traits with properties. It changes by writes alone: a write names an
entity, a trait of it, or a property with a value, and nothing that was named ever goes away.
-/

namespace EntityBroker.TableManager

abbrev Store := Dict TraitsData

inductive Write where
  | entity (entity : String)
  | traitOf (entity traitId : String)
  | property (entity traitId key : String) (value : Value)

namespace Store

def ofEntity (data : Option TraitsData) : TraitsData := data.getD TraitsData.empty

def apply (store : Store) : Write → Store
  | .entity e => store.update e ofEntity
  | .traitOf e t => store.update e (fun data => (ofEntity data).addTrait t)
  | .property e t k v => store.update e (fun data => (ofEntity data).set t k v)

def applyAll (store : Store) (writes : List Write) : Store := writes.foldl apply store

end Store

/-- A row names an entity and a trait, and a property if its third cell is not empty. Missing cells
are empty, and cells after the fourth do not matter. -/
def writeOfRow (row : List Char) : Write :=
  let cells := splitOn ',' row
  let cell := fun i => cells.getD i []
  let entity := String.ofList (cell 0)
  let traitId := String.ofList (cell 1)
  if cell 2 = [] then .traitOf entity traitId
  else .property entity traitId (String.ofList (cell 2)) (valueOf (cell 3))

def writesOfTable (text : String) : List Write := (lines text).map writeOfRow

/-- Names the entity, then each trait, then each of the trait's properties. -/
def writesOfData (reference : EntityReference) (data : TraitsData) : List Write :=
  .entity reference.text :: data.properties.flatMap fun (traitId, properties) =>
    .traitOf reference.text traitId ::
      properties.map fun (key, value) => .property reference.text traitId key value

end EntityBroker.TableManager
