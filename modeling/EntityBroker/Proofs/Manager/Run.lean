import EntityBroker.Manager

/-!
# Runs of a manager

A run is a list of calls, each with all that it is given. Calls that fail are part of a run like any
other: what they leave of the state is up to the manager.
-/

namespace EntityBroker.Manager

variable {σ : Type}

inductive Call where
  | identifier
  | displayName
  | info
  | settings (session : Session)
  | applySettings (settings : Info) (session : Session)
  | hasCapability (capability : Capability)
  | managementPolicy (traitSets : List TraitSet) (access : PolicyAccess) (context : Context)
      (session : Session)
  | isEntityReference (text : String) (session : Session)
  | batch (op : Operation) (request : Request op) (context : Context) (session : Session)

/-- The state that a call leaves. A manager's identity is read without one. -/
def after (m : Manager σ) (state : σ) : Call → σ
  | .identifier | .displayName | .info => state
  | .settings session => (m.settings session state).state
  | .applySettings settings session => (m.applySettings settings session state).state
  | .hasCapability capability => (m.hasCapability capability state).state
  | .managementPolicy traitSets access context session =>
    (m.managementPolicy traitSets access context session state).state
  | .isEntityReference text session => (m.isEntityReference text session state).state
  | .batch op request context session => (m.batch op request context session state).state

def run (m : Manager σ) (state : σ) (calls : List Call) : σ := calls.foldl m.after state

@[simp] theorem run_nil (m : Manager σ) (state : σ) : m.run state [] = state := rfl

@[simp] theorem run_cons (m : Manager σ) (state : σ) (call : Call) (calls : List Call) :
    m.run state (call :: calls) = m.run (m.after state call) calls := rfl

theorem run_append (m : Manager σ) (state : σ) (calls later : List Call) :
    m.run state (calls ++ later) = m.run (m.run state calls) later :=
  List.foldl_append

/-- What the calls of a run bring one after the other, each of them in the state that it meets. -/
def gather {α : Type} (m : Manager σ) (bring : σ → Call → List α) (state : σ) : List Call → List α
  | [] => []
  | call :: rest => bring state call ++ m.gather bring (m.after state call) rest

end EntityBroker.Manager
