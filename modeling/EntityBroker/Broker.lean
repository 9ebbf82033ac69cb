import EntityBroker.Manager

/-!
# The broker

What a host talks to: a manager bound to a session. Batch calls are checked, reported, passed on,
and their deliveries collected and finished under the caller's policy; an empty batch is answered
without asking the manager.
-/

namespace EntityBroker

structure Broker (σ : Type) where
  manager : Manager σ
  session : Session

namespace Broker

variable {σ : Type} {op : Operation}

def identifier (b : Broker σ) (state : σ) : Answer String := b.manager.identifier state

def displayName (b : Broker σ) (state : σ) : Answer String := b.manager.displayName state

def info (b : Broker σ) (state : σ) : Answer Info := b.manager.info state

def settings (b : Broker σ) (state : σ) : Reply σ Info := b.manager.settings b.session state

def applySettings (b : Broker σ) (settings : Info) (state : σ) : Reply σ Unit :=
  let announced := b.session.log .debugApi s!"initialize: {settings.size} setting(s)"
  let reply := b.manager.applySettings settings b.session state
  { reply with logs := announced ++ reply.logs }

def hasCapability (b : Broker σ) (capability : Capability) (state : σ) : Reply σ Bool :=
  b.manager.hasCapability capability state

/-- Asks about each capability in turn and keeps those that the manager has. -/
def capabilitiesAmong (b : Broker σ) : List Capability → σ → Reply σ (List Capability)
  | [], state => ⟨state, [], .ok []⟩
  | capability :: rest, state =>
    let first := b.hasCapability capability state
    let others := b.capabilitiesAmong rest first.state
    let kept := match first.result with
      | .ok true => others.result.map (capability :: ·)
      | _ => others.result
    ⟨others.state, first.logs ++ others.logs, kept⟩

def capabilities (b : Broker σ) (state : σ) : Reply σ (List Capability) :=
  b.capabilitiesAmong Capability.all state

def managementPolicy (b : Broker σ) (traitSets : List TraitSet) (access : PolicyAccess)
    (context : Context) (state : σ) : Reply σ (List TraitsData) :=
  b.manager.managementPolicy traitSets access context b.session state

def isEntityReference (b : Broker σ) (text : String) (state : σ) : Reply σ Bool :=
  b.manager.isEntityReference text b.session state

/-- The list that goes with the references has to be as long as they are. -/
def lengthFault? (request : Request op) : Option BatchFault :=
  match request.companion? with
  | none => none
  | some (others, content) =>
    if others = request.size then none
    else some (.unequalLengths request.size others content)

/-- Every outcome of a batch, in the order of the elements. -/
def outcomes (b : Broker σ) (request : Request op) (context : Context) (state : σ) :
    Reply σ (List (Outcome op.Answer)) :=
  match lengthFault? request with
  | some fault => ⟨state, [], .error fault.toError⟩
  | none =>
    let announced := b.session.log .debugApi
      (s!"{op.name}: {request.size} " ++ Request.elements op)
    if request.size = 0 then ⟨state, announced, .ok []⟩
    else
      let reply := b.manager.batch op request context b.session state
      ⟨reply.state, announced ++ reply.logs,
        Batch.collect request.size reply.deliveries reply.verdict⟩

def batch (b : Broker σ) (policy : Policy) (request : Request op) (context : Context)
    (state : σ) : Reply σ (policy.Batch op.Answer) :=
  let reply := b.outcomes request context state
  ⟨reply.state, reply.logs, reply.result.bind (policy.finishBatch request.elementContext)⟩

/-- The only outcome of a batch of one. -/
def firstOutcome {α : Type} : List (Outcome α) → Except Error (Outcome α)
  | outcome :: _ => .ok outcome
  | [] => .error BatchFault.noOutcome.toError

def single (b : Broker σ) (policy : Policy) (request : Request.Single op) (context : Context)
    (state : σ) : Reply σ (policy.Single op.Answer) :=
  let reply := b.outcomes request.batch context state
  ⟨reply.state, reply.logs, (reply.result.bind firstOutcome).bind
    (policy.finishSingle request.batch.elementContext)⟩

end Broker

end EntityBroker
