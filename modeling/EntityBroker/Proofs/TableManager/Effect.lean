import EntityBroker.Proofs.TableManager.History
import EntityBroker.Proofs.TableManager.Refusal

/-!
# What a call does to the table manager

`effect_after` says it once for all calls: settings that are accepted are merged and followed, data
that is published is written to the store, and nothing else ever changes the state. What a run keeps
is then a matter of these three cases.
-/

namespace EntityBroker.TableManager

/-- The settings that a call applies: its own, if they are accepted. -/
def applied (state : State) : Manager.Call → List Info
  | .applySettings settings session =>
    match (manager.applySettings settings session state).result with
    | .ok () => [settings]
    | .error _ => []
  | _ => []

/-- What a call publishes: if it registers with success, the data of each reference in turn. -/
def published (state : State) : Manager.Call → List Write
  | .batch .register (.register references datas access) context session =>
    match (manager.batch .register (.register references datas access) context session
        state).verdict with
    | .ok () => (references.zip datas).flatMap fun (reference, data) => writesOfData reference data
    | .error _ => []
  | _ => []

/-- What applying settings and publishing writes make of a state. No call does both. -/
inductive Effect (state : State) : List Info → List Write → State → Prop
  | followed (settings : Info) (h : faultsOf (state.settings.merge settings) = []) :
      Effect state [settings] []
        (state.follow (state.settings.merge settings)
          (directivesOf (state.settings.merge settings)))
  | written (writes : List Write) :
      Effect state [] writes { state with entities := state.entities.applyAll writes }

theorem Effect.unchanged (state : State) : Effect state [] [] state := .written []

theorem published_of_ne {op : Operation} (h : op ≠ .register) (state : State)
    (request : Request op) (context : Context) (session : Session) :
    published state (.batch op request context session) = [] := by
  cases request with
  | register references datas access => exact absurd rfl h
  | _ => rfl

theorem effect_applySettings (state : State) (settings : Info) (session : Session) :
    Effect state (applied state (.applySettings settings session)) []
      (manager.after state (.applySettings settings session)) := by
  simp only [applied, Manager.after, manager]
  cases hfaults : faultsOf (state.settings.merge settings) with
  | nil =>
    obtain ⟨hstate, hresult⟩ := applySettings_faultless hfaults session
    rw [hstate, hresult]
    exact .followed settings hfaults
  | cons fault others =>
    rw [applySettings_faulty hfaults]
    exact .unchanged state

theorem effect_register (state : State) (references : List EntityReference)
    (datas : List TraitsData) (access : PublishingAccess) (context : Context) (session : Session) :
    let call : Manager.Call :=
      .batch .register (.register references datas access) context session
    Effect state [] (published state call) (manager.after state call) := by
  simp only [published, Manager.after, manager]
  cases hp : state.has (required .register) with
  | true =>
    rw [batch, if_pos hp]
    exact .written _
  | false =>
    simp only [batch, hp, Bool.false_eq_true, ↓reduceIte]
    exact .unchanged state

theorem effect_after (state : State) (call : Manager.Call) :
    Effect state (applied state call) (published state call) (manager.after state call) := by
  cases call with
  | applySettings settings session => exact effect_applySettings state settings session
  | batch op request context session =>
    -- Registering is the only operation that writes.
    by_cases hop : op = .register
    · subst hop
      cases request with
      | register references datas access =>
        exact effect_register state references datas access context session
    · have hstate : manager.after state (.batch op request context session) = state :=
        batch_state_of_ne hop state request
      rw [published_of_ne hop, hstate]
      exact .unchanged state
  | _ => exact .unchanged state

end EntityBroker.TableManager
