import EntityBroker.Proofs.TableManager.Registered
import EntityBroker.Proofs.TableManager.Replay

/-!
# Publishing batch after batch

What a batch of registrations makes of a state is said by its pairs of a reference and data alone,
in their order (`after_registers`), and so is what many batches make of it (`run_registers`). From
this come the laws of `registering_laws`: batches can be put together and made again, those that
share no reference can be made in either order, and what a batch does not mention keeps its value.
-/

namespace EntityBroker.TableManager

/-- A call that registers the pairs: its references and its data are two lists of one length. -/
inductive Registers : List (EntityReference × TraitsData) → Manager.Call → Prop
  | pairwise {references : List EntityReference} {datas : List TraitsData}
      (h : references.length = datas.length) (access : PublishingAccess) (context : Context)
      (session : Session) :
      Registers (references.zip datas)
        (.batch .register (.register references datas access) context session)

def writesOfPairs (pairs : List (EntityReference × TraitsData)) : List Write :=
  pairs.flatMap fun (reference, data) => writesOfData reference data

def State.publish (state : State) (pairs : List (EntityReference × TraitsData)) : State :=
  { state with entities := state.entities.applyAll (writesOfPairs pairs) }

/-- What registering pairs makes of a state: the entities named by it are there, with the traits and
the properties of their data, later data going before earlier; nothing else is different. -/
structure Published (before : State) (pairs : List (EntityReference × TraitsData))
    (after : State) : Prop where
  settings : after.settings = before.settings
  referencePrefix : after.referencePrefix = before.referencePrefix
  capabilities : after.capabilities = before.capabilities
  readPolicy : after.readPolicy = before.readPolicy
  contains (entity : String) : after.entities.contains entity = true ↔
    (∃ pair ∈ pairs, pair.1.text = entity) ∨ before.entities.contains entity = true
  carries (entity traitId : String) : after.entities.Carries entity traitId ↔
    (∃ pair ∈ pairs, pair.1.text = entity ∧ pair.2.has traitId = true) ∨
      before.entities.Carries entity traitId
  property (entity traitId key : String) : after.entities.property? entity traitId key =
    (registered? entity traitId key pairs).or (before.entities.property? entity traitId key)
  otherEntity {entity : String} (h : ∀ pair ∈ pairs, pair.1.text ≠ entity) :
    after.entities.get? entity = before.entities.get? entity
  otherTrait {entity traitId : String}
    (h : ∀ pair ∈ pairs, pair.1.text = entity → pair.2.has traitId = false) :
    (after.entities.Carries entity traitId ↔ before.entities.Carries entity traitId) ∧
      ∀ key, after.entities.property? entity traitId key =
        before.entities.property? entity traitId key
  otherProperty {entity traitId key : String}
    (h : ∀ pair ∈ pairs, pair.1.text = entity → pair.2.get? traitId key = none) :
    after.entities.property? entity traitId key = before.entities.property? entity traitId key

variable {state : State} {pairs others : List (EntityReference × TraitsData)}

-- ---------------------------------------------------------------- the writes of pairs

theorem writesOfPairs_append :
    writesOfPairs (pairs ++ others) = writesOfPairs pairs ++ writesOfPairs others :=
  List.flatMap_append

theorem exists_named_writesOfPairs {entity : String} :
    (∃ w ∈ writesOfPairs pairs, w.entityNamed = entity) ↔ ∃ pair ∈ pairs, pair.1.text = entity := by
  simp only [writesOfPairs, List.mem_flatMap]
  constructor
  · rintro ⟨w, ⟨pair, hpair, hw⟩, hnamed⟩
    exact ⟨pair, hpair, (entityNamed_of_mem_writesOfData hw).symm.trans hnamed⟩
  · rintro ⟨pair, hpair, hnamed⟩
    exact ⟨.entity pair.1.text, ⟨pair, hpair, mem_writesOfData.mpr (.inl rfl)⟩, hnamed⟩

theorem exists_namesTrait_writesOfPairs {entity traitId : String} :
    (∃ w ∈ writesOfPairs pairs, w.NamesTrait entity traitId) ↔
      ∃ pair ∈ pairs, pair.1.text = entity ∧ pair.2.has traitId = true := by
  simp only [← exists_namesTrait_writesOfData, writesOfPairs, List.mem_flatMap]
  constructor
  · rintro ⟨w, ⟨pair, hpair, hw⟩, hnames⟩
    exact ⟨pair, hpair, w, hw, hnames⟩
  · rintro ⟨pair, hpair, w, hw, hnames⟩
    exact ⟨w, ⟨pair, hpair, hw⟩, hnames⟩

theorem registered?_eq_none {entity traitId key : String}
    (h : ∀ pair ∈ pairs, pair.1.text = entity → pair.2.get? traitId key = none) :
    registered? entity traitId key pairs = none := by
  rw [registered?, List.getLast?_eq_none_iff, List.filterMap_eq_nil_iff]
  intro pair hpair
  exact ite_eq_right_iff.mpr (h pair hpair)

-- ---------------------------------------------------------------- publishing pairs

theorem contains_publish {entity : String} : (state.publish pairs).entities.contains entity = true ↔
    (∃ pair ∈ pairs, pair.1.text = entity) ∨ state.entities.contains entity = true := by
  rw [State.publish, Store.contains_applyAll, exists_named_writesOfPairs]

theorem carries_publish {entity traitId : String} :
    (state.publish pairs).entities.Carries entity traitId ↔
      (∃ pair ∈ pairs, pair.1.text = entity ∧ pair.2.has traitId = true) ∨
        state.entities.Carries entity traitId := by
  rw [State.publish, Store.carries_applyAll, exists_namesTrait_writesOfPairs]

theorem property?_publish {entity traitId key : String} :
    (state.publish pairs).entities.property? entity traitId key =
      (registered? entity traitId key pairs).or (state.entities.property? entity traitId key) := by
  rw [State.publish, Store.property?_applyAll, writesOfPairs, filterMap_registered]

theorem property?_publish_of_unmentioned {entity traitId key : String}
    (h : ∀ pair ∈ pairs, pair.1.text = entity → pair.2.get? traitId key = none) :
    (state.publish pairs).entities.property? entity traitId key =
      state.entities.property? entity traitId key := by
  rw [property?_publish, registered?_eq_none h, Option.none_or]

theorem get?_publish_of_unnamed {entity : String} (h : ∀ pair ∈ pairs, pair.1.text ≠ entity) :
    (state.publish pairs).entities.get? entity = state.entities.get? entity := by
  refine Store.get?_applyAll_of_unnamed _ fun w hw hnamed => ?_
  obtain ⟨pair, hpair, htext⟩ := exists_named_writesOfPairs.mp ⟨w, hw, hnamed⟩
  exact h pair hpair htext

theorem published_publish (state : State) (pairs : List (EntityReference × TraitsData)) :
    Published state pairs (state.publish pairs) where
  settings := rfl
  referencePrefix := rfl
  capabilities := rfl
  readPolicy := rfl
  contains _ := contains_publish
  carries _ _ := carries_publish
  property _ _ _ := property?_publish
  otherEntity h := get?_publish_of_unnamed h
  otherTrait {entity traitId} h := by
    constructor
    · rw [carries_publish, or_iff_right]
      rintro ⟨pair, hpair, hentity, htrait⟩
      rw [h pair hpair hentity] at htrait
      cases htrait
    · intro key
      refine property?_publish_of_unmentioned fun pair hpair hentity => ?_
      exact TraitsData.get?_of_not_has (h pair hpair hentity) key
  otherProperty h := property?_publish_of_unmentioned h

theorem publish_append :
    state.publish (pairs ++ others) = (state.publish pairs).publish others := by
  simp only [State.publish, writesOfPairs_append, Store.applyAll_append]

theorem publish_again : (state.publish pairs).publish pairs = state.publish pairs := by
  simp only [State.publish, Store.applyAll_again]

theorem publish_comm (h : ∀ pair ∈ pairs, ∀ other ∈ others, pair.1 ≠ other.1) :
    (state.publish pairs).publish others = (state.publish others).publish pairs := by
  have hwrites : ∀ w ∈ writesOfPairs pairs, ∀ v ∈ writesOfPairs others,
      w.entityNamed ≠ v.entityNamed := by
    intro w hw v hv hsame
    obtain ⟨pair, hpair, hentity⟩ := exists_named_writesOfPairs.mp ⟨w, hw, hsame⟩
    obtain ⟨other, hother, hother'⟩ := exists_named_writesOfPairs.mp ⟨v, hv, rfl⟩
    exact h pair hpair other hother (congrArg EntityReference.mk (hentity.trans hother'.symm))
  simp only [State.publish, Store.applyAll_comm _ hwrites]

-- ---------------------------------------------------------------- calls

theorem after_registers {call : Manager.Call} (h : state.has .publishing = true)
    (hcall : Registers pairs call) : manager.after state call = state.publish pairs := by
  cases hcall with
  | pairwise hlength access context session =>
    have hrequired : state.has (required .register) = true := h
    exact congrArg BatchReply.state (batch_of_has hrequired (.register _ _ access))

/-- A run of registrations comes to registering the pairs of all of them at once. -/
theorem run_registers {batches : List (List (EntityReference × TraitsData))}
    {calls : List Manager.Call} (h : state.has .publishing = true)
    (hcalls : List.Forall₂ Registers batches calls) :
    manager.run state calls = state.publish batches.flatten := by
  induction hcalls generalizing state with
  | nil => rfl
  | @cons pairs call batches calls hcall hrest ih =>
    have hnext : (state.publish pairs).has .publishing = true := h
    rw [Manager.run_cons, after_registers h hcall, ih hnext, List.flatten_cons, publish_append]

/-- Laws of registration, for batches in which references may repeat. A batch changes only what it
mentions. Two batches one after the other come to the batch of both; one that is registered again
comes to the same as once; and two that have no reference in common come to the same in either
order. -/
theorem registering_laws (h : state.has .publishing = true) :
    (∀ pairs call, Registers pairs call → Published state pairs (manager.after state call)) ∧
    (∀ pairs others first second both, Registers pairs first → Registers others second →
      Registers (pairs ++ others) both →
      manager.after state both = manager.run state [first, second]) ∧
    (∀ pairs first again, Registers pairs first → Registers pairs again →
      manager.run state [first, again] = manager.after state first) ∧
    ∀ pairs others first second, Registers pairs first → Registers others second →
      (∀ pair ∈ pairs, ∀ other ∈ others, pair.1 ≠ other.1) →
      manager.run state [first, second] = manager.run state [second, first] := by
  have hrun : ∀ {pairs others first second}, Registers pairs first → Registers others second →
      manager.run state [first, second] = (state.publish pairs).publish others := by
    intro pairs others first second hfirst hsecond
    have hflatten : [pairs, others].flatten = pairs ++ others := by simp
    rw [run_registers h (.cons hfirst (.cons hsecond .nil)), hflatten, publish_append]
  refine ⟨fun pairs call hcall => ?_, fun pairs others first second both hfirst hsecond hboth => ?_,
    fun pairs first again hfirst hagain => ?_,
    fun pairs others first second hfirst hsecond hdisjoint => ?_⟩
  · rw [after_registers h hcall]
    exact published_publish state pairs
  · rw [after_registers h hboth, hrun hfirst hsecond, publish_append]
  · rw [after_registers h hfirst, hrun hfirst hagain, publish_again]
  · rw [hrun hfirst hsecond, hrun hsecond hfirst, publish_comm hdisjoint]

/-- A cat that gets two names in one batch, and a dog. -/
theorem cat_and_dog_registered :
    let session : Session := ⟨⟨"h", "H", Dict.empty⟩, .recording fun _ => true⟩
    let state : State := { State.initial with capabilities := [.publishing] }
    let named := fun name : String => TraitsData.empty.set "named" "name" (.text name)
    let cat : Manager.Call :=
      .batch .register (.register [⟨"cat"⟩, ⟨"cat"⟩] [named "Tom", named "Felix"] .write)
        Context.empty session
    let dog : Manager.Call :=
      .batch .register (.register [⟨"dog"⟩] [named "Rex"] .createRelated) Context.empty session
    state.has .publishing = true ∧
      Published state [(⟨"cat"⟩, named "Tom"), (⟨"cat"⟩, named "Felix")]
        (manager.after state cat) ∧
      manager.run state [cat, cat] = manager.after state cat ∧
      manager.run state [cat, dog] = manager.run state [dog, cat] := by
  intro session state named cat dog
  have h : state.has .publishing = true := rfl
  have hcat : Registers ([⟨"cat"⟩, ⟨"cat"⟩].zip [named "Tom", named "Felix"]) cat :=
    .pairwise rfl .write Context.empty session
  have hdog : Registers ([⟨"dog"⟩].zip [named "Rex"]) dog :=
    .pairwise rfl .createRelated Context.empty session
  obtain ⟨hpublished, -, hagain, hcomm⟩ := registering_laws h
  exact ⟨h, hpublished _ _ hcat, hagain _ _ _ hcat hcat, hcomm _ _ _ _ hcat hdog (by decide)⟩

end EntityBroker.TableManager
