import EntityBroker.Access
import EntityBroker.EntityReference
import EntityBroker.TraitsData

/-!
# Batch operations and their requests

The six operations that work on many entities at once, what each is asked, and what it answers for
one element. `Request.Single` asks for one element; `Request.Single.batch` is the batch of that one.
-/

namespace EntityBroker

inductive Operation where
  | entityExists
  | entityTraits
  | defaultEntityReference
  | resolve
  | preflight
  | register
  deriving DecidableEq, Repr

namespace Operation

def name : Operation → String
  | .entityExists => "entityExists"
  | .entityTraits => "entityTraits"
  | .defaultEntityReference => "defaultEntityReference"
  | .resolve => "resolve"
  | .preflight => "preflight"
  | .register => "register"

/-- What an operation answers for one element; a trait set may have no default entity. -/
abbrev Answer : Operation → Type
  | .entityExists => Bool
  | .entityTraits => TraitSet
  | .defaultEntityReference => Option EntityReference
  | .resolve => TraitsData
  | .preflight => EntityReference
  | .register => EntityReference

end Operation

inductive Request : Operation → Type where
  | entityExists (references : List EntityReference) : Request .entityExists
  | entityTraits (references : List EntityReference) (access : EntityTraitsAccess) :
      Request .entityTraits
  | defaultEntityReference (traitSets : List TraitSet) (access : DefaultEntityAccess) :
      Request .defaultEntityReference
  | resolve (references : List EntityReference) (traitSet : TraitSet) (access : ResolveAccess) :
      Request .resolve
  | preflight (references : List EntityReference) (hints : List TraitsData)
      (access : PublishingAccess) : Request .preflight
  | register (references : List EntityReference) (datas : List TraitsData)
      (access : PublishingAccess) : Request .register

namespace Request

variable {op : Operation}

def references : Request op → List EntityReference
  | .entityExists references => references
  | .entityTraits references _ => references
  | .defaultEntityReference _ _ => []
  | .resolve references _ _ => references
  | .preflight references _ _ => references
  | .register references _ _ => references

/-- The number of elements asked about. -/
def size : Request op → Nat
  | .entityExists references => references.length
  | .entityTraits references _ => references.length
  | .defaultEntityReference traitSets _ => traitSets.length
  | .resolve references _ _ => references.length
  | .preflight references _ _ => references.length
  | .register references _ _ => references.length

def access? : Request op → Option Access
  | .entityExists _ => none
  | .entityTraits _ access => some access.mode
  | .defaultEntityReference _ access => some access.mode
  | .resolve _ _ access => some access.mode
  | .preflight _ _ access => some access.mode
  | .register _ _ access => some access.mode

/-- What the elements are, in log messages. -/
def elements : Operation → String
  | .defaultEntityReference => "trait set(s)"
  | _ => "entity reference(s)"

/-- The list that goes with the references element by element: its length and what it holds. -/
def companion? : Request op → Option (Nat × String)
  | .preflight _ hints _ => some (hints.length, "traits hints")
  | .register _ datas _ => some (datas.length, "traits datas")
  | _ => none

inductive Single : Operation → Type where
  | entityExists (reference : EntityReference) : Single .entityExists
  | entityTraits (reference : EntityReference) (access : EntityTraitsAccess) :
      Single .entityTraits
  | defaultEntityReference (traitSet : TraitSet) (access : DefaultEntityAccess) :
      Single .defaultEntityReference
  | resolve (reference : EntityReference) (traitSet : TraitSet) (access : ResolveAccess) :
      Single .resolve
  | preflight (reference : EntityReference) (hint : TraitsData) (access : PublishingAccess) :
      Single .preflight
  | register (reference : EntityReference) (data : TraitsData) (access : PublishingAccess) :
      Single .register

def Single.batch : Single op → Request op
  | .entityExists reference => .entityExists [reference]
  | .entityTraits reference access => .entityTraits [reference] access
  | .defaultEntityReference traitSet access => .defaultEntityReference [traitSet] access
  | .resolve reference traitSet access => .resolve [reference] traitSet access
  | .preflight reference hint access => .preflight [reference] [hint] access
  | .register reference data access => .register [reference] [data] access

/-- The request for one element that a batch of one is. -/
def single? : Request op → Option (Single op)
  | .entityExists [reference] => some (.entityExists reference)
  | .entityTraits [reference] access => some (.entityTraits reference access)
  | .defaultEntityReference [traitSet] access => some (.defaultEntityReference traitSet access)
  | .resolve [reference] traitSet access => some (.resolve reference traitSet access)
  | .preflight [reference] [hint] access => some (.preflight reference hint access)
  | .register [reference] [data] access => some (.register reference data access)
  | _ => none

theorem size_batch (s : Single op) : s.batch.size = 1 := by cases s <;> rfl

end Request

end EntityBroker
