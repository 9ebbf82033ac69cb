import EntityBroker.Capability
import EntityBroker.Policy
import EntityBroker.Session

/-!
# Managers

A manager is what answers for entities: a record of operations over states of type `σ`. Every
operation but the identity ones may change the state and report through the session; a batch
operation delivers outcomes and ends with a verdict. `Manager.unsupported` supports nothing but its
identity.
-/

namespace EntityBroker

/-- What asking a manager about itself comes to. A manager of a host's own process may crash; one
that is called over a boundary never does. -/
inductive Answer (α : Type) where
  | ok (value : α)
  | error (e : Error)
  | crash

def Answer.ofExcept {α : Type} : Except Error α → Answer α
  | .ok value => .ok value
  | .error e => .error e

structure Reply (σ α : Type) where
  state : σ
  logs : List LogRecord
  result : Except Error α

structure BatchReply (σ α : Type) where
  state : σ
  logs : List LogRecord
  deliveries : List (Delivery α)
  verdict : Except Error Unit

structure Manager (σ : Type) where
  identifier : σ → Answer String
  displayName : σ → Answer String
  info : σ → Answer Info
  settings : Session → σ → Reply σ Info
  applySettings : Info → Session → σ → Reply σ Unit
  hasCapability : Capability → σ → Reply σ Bool
  /-- One policy for each trait set, in order. -/
  managementPolicy : List TraitSet → PolicyAccess → Context → Session → σ →
    Reply σ (List TraitsData)
  isEntityReference : String → Session → σ → Reply σ Bool
  batch : (op : Operation) → Request op → Context → Session → σ → BatchReply σ op.Answer

namespace Manager

variable {σ τ α : Type}

/-- The error of an operation that a manager does not have. -/
def unsupportedError (operation : String) : Error :=
  .notImplemented s!"{operation} is not supported by this manager"

def decline (operation : String) (state : σ) : Reply σ α :=
  ⟨state, [], .error (unsupportedError operation)⟩

/-- Has an identity, no settings and nothing to tell about itself, and supports no other operation.
-/
def unsupported (identifier displayName : String) : Manager σ where
  identifier := fun _ => .ok identifier
  displayName := fun _ => .ok displayName
  info := fun _ => .ok Dict.empty
  settings := fun _ state => ⟨state, [], .ok Dict.empty⟩
  applySettings := fun _ _ state => decline "initialize" state
  hasCapability := fun _ state => decline "hasCapability" state
  managementPolicy := fun _ _ _ _ state => decline "managementPolicy" state
  isEntityReference := fun _ _ state => decline "isEntityReferenceString" state
  batch := fun op _ _ _ state => ⟨state, [], [], .error (unsupportedError op.name)⟩

-- ---------------------------------------------------------------- states within states

def Reply.within (put : σ → τ) (r : Reply σ α) : Reply τ α := ⟨put r.state, r.logs, r.result⟩

def BatchReply.within (put : σ → τ) (r : BatchReply σ α) : BatchReply τ α :=
  ⟨put r.state, r.logs, r.deliveries, r.verdict⟩

/-- The same manager where its state is a part of a larger one. -/
def within (m : Manager σ) (get : τ → σ) (put : τ → σ → τ) : Manager τ where
  identifier := fun t => m.identifier (get t)
  displayName := fun t => m.displayName (get t)
  info := fun t => m.info (get t)
  settings := fun session t => Reply.within (put t) (m.settings session (get t))
  applySettings := fun settings session t =>
    Reply.within (put t) (m.applySettings settings session (get t))
  hasCapability := fun capability t =>
    Reply.within (put t) (m.hasCapability capability (get t))
  managementPolicy := fun traitSets access context session t =>
    Reply.within (put t) (m.managementPolicy traitSets access context session (get t))
  isEntityReference := fun text session t =>
    Reply.within (put t) (m.isEntityReference text session (get t))
  batch := fun op request context session t =>
    BatchReply.within (put t) (m.batch op request context session (get t))

end Manager

end EntityBroker
