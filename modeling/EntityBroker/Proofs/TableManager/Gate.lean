import EntityBroker.Proofs.Manager.Run
import EntityBroker.Proofs.TableManager.Contract

/-!
# Operations and the capabilities that they belong to

A manager that has not declared a capability is expected to fall back on every operation that
belongs to it. The batch operations of the table manager do (`fallsBack_iff`). The two operations
that answer without a batch never look at the capabilities: they answer a host that was told they
are not there (`undeclared_queries_answered`).
-/

namespace EntityBroker.TableManager

/-- The capability that a call belongs to; calls about the manager itself belong to none. -/
def capabilityFor? : Manager.Call → Option Capability
  | .managementPolicy .. => some .managementPolicyQueries
  | .isEntityReference .. => some .entityReferenceIdentification
  | .batch .entityExists .. => some .existenceQueries
  | .batch .entityTraits .. => some .entityTraitIntrospection
  | .batch .defaultEntityReference .. => some .defaultEntityReferences
  | .batch .resolve .. => some .resolution
  | .batch .preflight .. => some .publishing
  | .batch .register .. => some .publishing
  | _ => none

def IsBatch : Manager.Call → Prop
  | .batch .. => True
  | _ => False

def Unsupported {α : Type} (result : Except Error α) : Prop :=
  ∃ e, result = .error e ∧ e.kind = .notImplemented

/-- The manager answers a call as one that does not have the operation, and delivers nothing. -/
def FallsBack (state : State) : Manager.Call → Prop
  | .managementPolicy traitSets access context session =>
    Unsupported (manager.managementPolicy traitSets access context session state).result
  | .isEntityReference text session =>
    Unsupported (manager.isEntityReference text session state).result
  | .batch op request context session =>
    let reply := manager.batch op request context session state
    Unsupported reply.verdict ∧ reply.deliveries = []
  | _ => False

theorem capabilityFor?_batch {op : Operation} (request : Request op) (context : Context)
    (session : Session) :
    capabilityFor? (.batch op request context session) = some (required op) := by
  cases op <;> rfl

theorem not_unsupported_ok {α : Type} (value : α) : ¬ Unsupported (.ok value) := by
  rintro ⟨e, he, -⟩
  cases he

theorem fallsBack_batch_iff {op : Operation} (state : State) (request : Request op)
    (context : Context) (session : Session) :
    FallsBack state (.batch op request context session) ↔ state.has (required op) = false := by
  cases hp : state.has (required op) with
  | true =>
    have hreply : manager.batch op request context session state = _ := batch_of_has hp request
    simp only [FallsBack, hreply, not_unsupported_ok, false_and, reduceCtorEq]
  | false =>
    have hreply : manager.batch op request context session state = _ := batch_of_not_has hp request
    simp only [FallsBack, hreply, and_true, iff_true]
    exact ⟨_, rfl, rfl⟩

/-- After any run, a call that belongs to a capability falls back exactly if it is a batch and the
manager does not declare the capability. The other two operations have an answer in every state, and
the same one whatever capabilities are declared. -/
theorem fallsBack_iff (calls : List Manager.Call) :
    let state := manager.run State.initial calls
    (∀ call capability, capabilityFor? call = some capability →
      (FallsBack state call ↔
        IsBatch call ∧ (manager.hasCapability capability state).result = .ok false)) ∧
    (∀ traitSets access context session, ∃ policies, ∀ capabilities,
      (manager.managementPolicy traitSets access context session
        { state with capabilities := capabilities }).result = .ok policies) ∧
    ∀ text session, ∃ answer, ∀ capabilities,
      (manager.isEntityReference text session
        { state with capabilities := capabilities }).result = .ok answer := by
  intro state
  refine ⟨fun call capability hcall => ?_, fun traitSets access _ _ => ?_, fun text _ => ?_⟩
  · cases call with
    | batch op request context session =>
      rw [capabilityFor?_batch] at hcall
      cases hcall
      simp only [fallsBack_batch_iff, IsBatch, true_and, manager, Except.ok.injEq]
    | managementPolicy traitSets access context session =>
      simp only [FallsBack, IsBatch, manager, not_unsupported_ok, false_and]
    | isEntityReference text session =>
      simp only [FallsBack, IsBatch, manager, not_unsupported_ok, false_and]
    | _ => cases hcall
  · exact ⟨managementPolicy traitSets access state, fun _ => rfl⟩
  · exact ⟨text.startsWith state.referencePrefix, fun _ => rfl⟩

/-- A manager that is told to do nothing but publish does not resolve. -/
theorem resolve_falls_back_of_publishing :
    let session : Session := ⟨⟨"h", "H", Dict.empty⟩, .recording fun _ => true⟩
    let settings := Dict.empty.insert "capabilities" (.text "publishing")
    let state := manager.run State.initial [.applySettings settings session]
    let call : Manager.Call :=
      .batch .resolve (.resolve [⟨"simple://cat"⟩] Dict.empty .read) Context.empty session
    capabilityFor? call = some .resolution ∧
      (manager.hasCapability .resolution state).result = .ok false ∧ FallsBack state call := by
  intro session settings state call
  have hcapability : (manager.hasCapability .resolution state).result = .ok false := rfl
  exact ⟨rfl, hcapability, ((fallsBack_iff _).1 call .resolution rfl).mpr ⟨trivial, hcapability⟩⟩

/-- The same manager declares neither reference identification nor policy queries, and answers both
kinds of question. -/
theorem undeclared_queries_answered :
    let session : Session := ⟨⟨"h", "H", Dict.empty⟩, .recording fun _ => true⟩
    let settings := Dict.empty.insert "capabilities" (.text "publishing")
    let state := manager.run State.initial [.applySettings settings session]
    let identification : Manager.Call := .isEntityReference "simple://cat" session
    let policy : Manager.Call :=
      .managementPolicy [NameSet.ofList ["locatable"]] .read Context.empty session
    capabilityFor? identification = some .entityReferenceIdentification ∧
      (manager.hasCapability .entityReferenceIdentification state).result = .ok false ∧
      ¬ FallsBack state identification ∧
    capabilityFor? policy = some .managementPolicyQueries ∧
      (manager.hasCapability .managementPolicyQueries state).result = .ok false ∧
      ¬ FallsBack state policy :=
  ⟨rfl, rfl, not_unsupported_ok _, rfl, rfl, not_unsupported_ok _⟩

end EntityBroker.TableManager
