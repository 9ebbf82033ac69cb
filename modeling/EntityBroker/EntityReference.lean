/-!
# Entity references

A manager's name for an entity. It is opaque text: the manager alone decides what is valid.
References are ordered by their characters.
-/

namespace EntityBroker

structure EntityReference where
  text : String
  deriving DecidableEq, Repr, Inhabited

def EntityReference.compare (a b : EntityReference) : Ordering :=
  if a.text < b.text then .lt else if a.text = b.text then .eq else .gt

end EntityBroker
