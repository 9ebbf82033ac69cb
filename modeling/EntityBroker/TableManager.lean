import EntityBroker.Manager
import EntityBroker.TableManager.Store

/-!
# The table manager

A manager that serves the entities of a table in its settings. Applying settings merges them over
those of before, reads everything that the merged settings say and only then changes the state. The
operations on entities need their capability; entities are read-only but for registration.
-/

namespace EntityBroker.TableManager

structure State where
  settings : Info
  capabilities : List Capability
  entities : Store
  referencePrefix : String
  readPolicy : String

def State.initial : State where
  settings := Dict.empty
  capabilities :=
    [.entityReferenceIdentification, .managementPolicyQueries, .entityTraitIntrospection,
      .resolution]
  entities := Dict.empty
  referencePrefix := "simple://"
  readPolicy := ""

-- ---------------------------------------------------------------- settings

inductive SettingFault where
  | notText (key : String)
  | unknownCapability (name : String)
  deriving DecidableEq

def SettingFault.toError : SettingFault → Error
  | .notText key => .configuration s!"SimpleManager: setting '{key}' must be a string"
  | .unknownCapability name => .configuration s!"SimpleManager: unsupported capability: {name}"

def textSetting (settings : Info) (key : String) : Except SettingFault (Option String) :=
  match settings.get? key with
  | none => .ok none
  | some (.text text) => .ok (some text)
  | some _ => .error (.notText key)

def capabilitiesOfNames : List String → Except SettingFault (List Capability)
  | [] => .ok []
  | name :: rest =>
    match Capability.ofName? name with
    | none => .error (.unknownCapability name)
    | some capability => (capabilitiesOfNames rest).map (capability :: ·)

/-- Names with a comma between two of them; the empty text names no capability. -/
def parseCapabilities (text : String) : Except SettingFault (List Capability) :=
  if text = "" then .ok []
  else capabilitiesOfNames ((splitOn ',' text.toList).map String.ofList)

/-- What settings say, as far as they say it. -/
structure Directives where
  referencePrefix : Option String
  capabilities : Option (List Capability)
  readPolicy : Option String
  table : Option String

def readSettings (settings : Info) : Except SettingFault Directives := do
  let referencePrefix ← textSetting settings "prefix"
  let capabilities ← match ← textSetting settings "capabilities" with
    | none => pure none
    | some text => some <$> parseCapabilities text
  let readPolicy ← textSetting settings "read_policy"
  let table ← textSetting settings "read_traits"
  return ⟨referencePrefix, capabilities, readPolicy, table⟩

/-- Follows the directives; what they leave open stays as it is. -/
def State.follow (state : State) (settings : Info) (d : Directives) : State where
  settings := settings
  capabilities := d.capabilities.getD state.capabilities
  entities := state.entities.applyAll ((d.table.map writesOfTable).getD [])
  referencePrefix := d.referencePrefix.getD state.referencePrefix
  readPolicy := d.readPolicy.getD state.readPolicy

def applySettings (settings : Info) (session : Session) (state : State) : Reply State Unit :=
  let merged := state.settings.merge settings
  match readSettings merged with
  | .error fault => ⟨state, [], .error fault.toError⟩
  | .ok directives =>
    let next := state.follow merged directives
    let report := s!"SimpleManager: initialized with {next.entities.size} entities and " ++
      s!"prefix '{next.referencePrefix}'"
    ⟨next, session.log .debug report, .ok ()⟩

-- ---------------------------------------------------------------- queries

def State.has (state : State) (capability : Capability) : Bool :=
  state.capabilities.contains capability

/-- The first entity, in the order of references, that has all the traits. -/
def State.firstWith? (state : State) (traitSet : TraitSet) : Option (String × TraitsData) :=
  state.entities.entries.find? fun e => traitSet.toList.all e.2.has

/-- The trait with its properties as far as the entity has any for it. -/
def copyTrait (source : TraitsData) (target : TraitsData) (traitId : String) : TraitsData :=
  ((source.traits.get? traitId).getD Dict.empty).entries.foldl
    (fun target property => target.set traitId property.1 property.2) target

/-- The properties that the entity has for the traits asked for. -/
def propertiesFor (source : TraitsData) (traitSet : TraitSet) : TraitsData :=
  traitSet.toList.foldl (copyTrait source) TraitsData.empty

/-- The traits of the set that the first entity with all of them has properties for, and the read
policy trait; nothing if there is no such entity. -/
def State.policyFor (state : State) (traitSet : TraitSet) : TraitsData :=
  if traitSet.isEmpty then TraitsData.empty
  else match state.firstWith? traitSet with
    | none => TraitsData.empty
    | some (_, data) =>
      let supported := traitSet.toList.filter fun t =>
        !((data.traits.get? t).getD Dict.empty).isEmpty
      let policy := supported.foldl TraitsData.addTrait TraitsData.empty
      if state.readPolicy = "" then policy else policy.addTrait state.readPolicy

def managementPolicy (traitSets : List TraitSet) (access : PolicyAccess) (state : State) :
    List TraitsData :=
  match access with
  | .read => traitSets.map state.policyFor
  | _ => traitSets.map fun _ => TraitsData.empty

def readOnly : ElementError := ⟨.entityAccessError, "Entity access is read-only"⟩

def notFound : ElementError := ⟨.entityResolutionError, "Entity not found"⟩

def traitsOf (state : State) (access : EntityTraitsAccess) (reference : EntityReference) :
    Outcome TraitSet :=
  match access with
  | .write => .error readOnly
  | .read =>
    match state.entities.get? reference.text with
    | none => .error notFound
    | some data => .ok data.traitSet

def defaultFor (state : State) (access : DefaultEntityAccess) (traitSet : TraitSet) :
    Outcome (Option EntityReference) :=
  match access with
  | .write | .createRelated => .error readOnly
  | .read =>
    if traitSet.isEmpty then .error ⟨.invalidTraitSet, "Trait set is empty"⟩
    else .ok ((state.firstWith? traitSet).map fun e => ⟨e.1⟩)

def resolved (state : State) (traitSet : TraitSet) (access : ResolveAccess)
    (reference : EntityReference) : Outcome TraitsData :=
  match access with
  | .managerDriven => .error readOnly
  | .read =>
    match state.entities.get? reference.text with
    | none => .error notFound
    | some data => .ok (propertiesFor data traitSet)

-- ---------------------------------------------------------------- batches

/-- The capability that an operation needs. -/
def required : Operation → Capability
  | .entityExists => .existenceQueries
  | .entityTraits => .entityTraitIntrospection
  | .defaultEntityReference => .defaultEntityReferences
  | .resolve => .resolution
  | .preflight => .publishing
  | .register => .publishing

def missingCapability (op : Operation) : Error :=
  .notImplemented s!"{op.name} requires {(required op).name}"

def registrations (references : List EntityReference) (datas : List TraitsData) :
    List (EntityReference × TraitsData) :=
  references.zip datas

/-- The state after a request, and an outcome for each of its elements in order. -/
def answer (state : State) : {op : Operation} → Request op → State × List (Outcome op.Answer)
  | _, .entityExists references =>
    (state, references.map fun r => .ok (state.entities.contains r.text))
  | _, .entityTraits references access => (state, references.map (traitsOf state access))
  | _, .defaultEntityReference traitSets access =>
    (state, traitSets.map (defaultFor state access))
  | _, .resolve references traitSet access =>
    (state, references.map (resolved state traitSet access))
  | _, .preflight references _ _ => (state, references.map .ok)
  | _, .register references datas _ =>
    let pairs := registrations references datas
    let writes := pairs.flatMap fun (reference, data) => writesOfData reference data
    ({ state with entities := state.entities.applyAll writes }, pairs.map fun pair => .ok pair.1)

/-- A delivery for each outcome, numbered from 0. Each of the six operations goes through its
elements in order and delivers once for each under the index of the element, so one numbering serves
all of them; what an element comes to is up to `answer`. -/
def inOrder {α : Type} (outcomes : List (Outcome α)) : List (Delivery α) :=
  outcomes.zipIdx.map fun (outcome, index) => ⟨index, outcome⟩

/-- Each of the six operations asks for its capability before it does anything else, so one gate
serves all of them. Past the gate none fails as a whole. -/
def batch (op : Operation) (request : Request op) (state : State) : BatchReply State op.Answer :=
  if state.has (required op) then
    let (next, outcomes) := answer state request
    ⟨next, [], inOrder outcomes, .ok ()⟩
  else ⟨state, [], [], .error (missingCapability op)⟩

def ownIdentifier : String := "org.assetio.examples.manager.simple"

def manager : Manager State where
  identifier := fun _ => .ok ownIdentifier
  displayName := fun _ => .ok "Simple Manager"
  info := fun state =>
    .ok (Dict.empty.insert "entityReferencesMatchPrefix" (.text state.referencePrefix))
  settings := fun _ state => ⟨state, [], .ok state.settings⟩
  applySettings := applySettings
  hasCapability := fun capability state => ⟨state, [], .ok (state.has capability)⟩
  managementPolicy := fun traitSets access _ _ state =>
    ⟨state, [], .ok (managementPolicy traitSets access state)⟩
  isEntityReference := fun text _ state =>
    ⟨state, [], .ok (text.startsWith state.referencePrefix)⟩
  batch := fun op request _ _ state => batch op request state

end EntityBroker.TableManager
