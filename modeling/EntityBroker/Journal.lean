import EntityBroker.Manager

/-!
# Journals

A manager with a journal keeps, beside its state, what it was asked: every operation but those of
its identity, with what it was given, in the order of the calls.
-/

namespace EntityBroker

inductive ManagerCall where
  | settings
  | applySettings (settings : Info)
  | hasCapability (capability : Capability)
  | managementPolicy (traitSets : List TraitSet) (access : PolicyAccess) (context : Context)
      (host : Host)
  | isEntityReference (text : String)
  | batch (op : Operation) (request : Request op) (context : Context) (host : Host)

/-- A state with the journal so far. -/
structure Journaled (σ : Type) where
  state : σ
  journal : List ManagerCall

namespace Journaled

variable {σ α : Type}

def reply (before : Journaled σ) (call : ManagerCall) (r : Reply σ α) : Reply (Journaled σ) α :=
  ⟨⟨r.state, before.journal ++ [call]⟩, r.logs, r.result⟩

def batchReply (before : Journaled σ) (call : ManagerCall) (r : BatchReply σ α) :
    BatchReply (Journaled σ) α :=
  ⟨⟨r.state, before.journal ++ [call]⟩, r.logs, r.deliveries, r.verdict⟩

end Journaled

/-- The same manager, keeping a journal. -/
def Manager.journaled {σ : Type} (m : Manager σ) : Manager (Journaled σ) where
  identifier := fun j => m.identifier j.state
  displayName := fun j => m.displayName j.state
  info := fun j => m.info j.state
  settings := fun session j => j.reply .settings (m.settings session j.state)
  applySettings := fun settings session j =>
    j.reply (.applySettings settings) (m.applySettings settings session j.state)
  hasCapability := fun capability j =>
    j.reply (.hasCapability capability) (m.hasCapability capability j.state)
  managementPolicy := fun traitSets access context session j =>
    j.reply (.managementPolicy traitSets access context session.host)
      (m.managementPolicy traitSets access context session j.state)
  isEntityReference := fun text session j =>
    j.reply (.isEntityReference text) (m.isEntityReference text session j.state)
  batch := fun op request context session j =>
    j.batchReply (.batch op request context session.host)
      (m.batch op request context session j.state)

end EntityBroker
