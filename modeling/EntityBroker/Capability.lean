/-!
# Capabilities

What a manager may declare that it can do, known by name and by number.
-/

namespace EntityBroker

inductive Capability where
  | entityReferenceIdentification
  | managementPolicyQueries
  | statefulContexts
  | customTerminology
  | resolution
  | publishing
  | relationshipQueries
  | existenceQueries
  | defaultEntityReferences
  | entityTraitIntrospection
  deriving DecidableEq, Repr

namespace Capability

def all : List Capability :=
  [.entityReferenceIdentification, .managementPolicyQueries, .statefulContexts,
    .customTerminology, .resolution, .publishing, .relationshipQueries, .existenceQueries,
    .defaultEntityReferences, .entityTraitIntrospection]

def ordinal : Capability → Nat
  | .entityReferenceIdentification => 0
  | .managementPolicyQueries => 1
  | .statefulContexts => 2
  | .customTerminology => 3
  | .resolution => 4
  | .publishing => 5
  | .relationshipQueries => 6
  | .existenceQueries => 7
  | .defaultEntityReferences => 8
  | .entityTraitIntrospection => 9

def name : Capability → String
  | .entityReferenceIdentification => "entityReferenceIdentification"
  | .managementPolicyQueries => "managementPolicyQueries"
  | .statefulContexts => "statefulContexts"
  | .customTerminology => "customTerminology"
  | .resolution => "resolution"
  | .publishing => "publishing"
  | .relationshipQueries => "relationshipQueries"
  | .existenceQueries => "existenceQueries"
  | .defaultEntityReferences => "defaultEntityReferences"
  | .entityTraitIntrospection => "entityTraitIntrospection"

def ofName? (name : String) : Option Capability := all.find? (fun c => c.name == name)

theorem mem_all (c : Capability) : c ∈ all := by cases c <;> decide

theorem ofName?_name (c : Capability) : ofName? c.name = some c := by cases c <;> rfl

theorem name_of_ofName? {text : String} {c : Capability} (h : ofName? text = some c) :
    c.name = text := by
  have := List.find?_some h
  simpa using this

theorem name_injective : Function.Injective name := by
  intro c d h
  have hname := ofName?_name c
  rw [h, ofName?_name] at hname
  exact (Option.some.inj hname).symm

end Capability

end EntityBroker
