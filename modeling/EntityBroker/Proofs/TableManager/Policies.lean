import Mathlib.Data.List.Forall2
import EntityBroker.Proofs.TableManager.Queries

/-!
# Policies and the other queries

The management policy for a trait set searches for an entity and looks at its properties by itself.
`policies_agree`: it finds the entity that the manager names as the default for the set, and
supports those traits that resolving this entity for the set brings properties of.
-/

namespace EntityBroker.TableManager

def HasNoProperty (data : TraitsData) : Prop := ∀ traitId key, data.get? traitId key = none

/-- What the policy for a trait set has to do with the other answers: without an entity to take for
the set it is empty, and else it has the traits that this entity resolves to, and the read policy
trait if there is one. -/
inductive PolicyAgrees (state : State) (traitSet : TraitSet) : TraitsData → Prop
  | noTraits (h : traitSet.toList = []) : PolicyAgrees state traitSet TraitsData.empty
  | noEntity (h : Answers state (.defaultEntityReference [traitSet] .read) [.ok none]) :
      PolicyAgrees state traitSet TraitsData.empty
  | entity {reference : EntityReference} {data policy : TraitsData}
      (hdefault : Answers state (.defaultEntityReference [traitSet] .read) [.ok (some reference)])
      (hresolve : Answers state (.resolve [reference] traitSet .read) [.ok data])
      (htraits : ∀ t, policy.has t = true ↔
        data.has t = true ∨ state.readPolicy ≠ "" ∧ t = state.readPolicy) :
      PolicyAgrees state traitSet policy

variable {state : State} {traitSet : TraitSet}

-- ---------------------------------------------------------------- one trait set

theorem policyFor_of_noTraits (h : traitSet.toList = []) :
    state.policyFor traitSet = TraitsData.empty := by
  rw [State.policyFor, if_pos (NameSet.isEmpty_iff.mpr h)]

theorem policyFor_of_noEntity (h : state.firstWith? traitSet = none) :
    state.policyFor traitSet = TraitsData.empty := by
  rw [State.policyFor, h]
  exact ite_self _

theorem has_policyFor {entity : String} {source : TraitsData} (h : traitSet.toList ≠ [])
    (hfirst : state.firstWith? traitSet = some (entity, source)) (t : String) :
    (state.policyFor traitSet).has t = true ↔
      (t ∈ traitSet.toList ∧ ∃ key value, source.get? t key = some value) ∨
        state.readPolicy ≠ "" ∧ t = state.readPolicy := by
  have hsupported : ∀ u, (!((source.traits.get? u).getD Dict.empty).isEmpty) = true ↔
      ∃ key value, source.get? u key = some value := by
    intro u
    rw [Bool.not_eq_true', Dict.isEmpty_eq_false_iff]
    cases hu : source.traits.get? u <;> simp [TraitsData.get?, hu]
  have hnone : TraitsData.empty.has t = false := rfl
  rw [State.policyFor, if_neg (mt NameSet.isEmpty_iff.mp h), hfirst]
  by_cases hpolicy : state.readPolicy = ""
  · simp [hpolicy, TraitsData.has_addAll, hsupported, hnone]
  · simp [hpolicy, TraitsData.has_addTrait, TraitsData.has_addAll, hsupported, hnone, or_comm]

theorem hasNoProperty_policyFor : HasNoProperty (state.policyFor traitSet) := by
  intro t key
  have hnone : TraitsData.empty.get? t key = none := rfl
  unfold State.policyFor
  split
  · exact hnone
  split
  · exact hnone
  · split
    · rw [TraitsData.get?_addAll, hnone]
    · rw [TraitsData.get?_addTrait, TraitsData.get?_addAll, hnone]

theorem answers_default (h : state.has .defaultEntityReferences = true) (traitSet : TraitSet) :
    Answers state (.defaultEntityReference [traitSet] .read) [defaultFor state .read traitSet] := by
  have heach : AnswersEach state (Request.defaultEntityReference · .read)
      (defaultFor state .read) := answersEach_of_answer h fun _ => rfl
  exact heach.each [traitSet]

theorem answers_resolve (h : state.has .resolution = true) (reference : EntityReference)
    (traitSet : TraitSet) :
    Answers state (.resolve [reference] traitSet .read)
      [resolved state traitSet .read reference] := by
  have heach : AnswersEach state (Request.resolve · traitSet .read)
      (resolved state traitSet .read) := answersEach_of_answer h fun _ => rfl
  exact heach.each [reference]

theorem policyAgrees_policyFor (hdefault : state.has .defaultEntityReferences = true)
    (hresolve : state.has .resolution = true) (traitSet : TraitSet) :
    PolicyAgrees state traitSet (state.policyFor traitSet) := by
  by_cases h : traitSet.toList = []
  · rw [policyFor_of_noTraits h]
    exact .noTraits h
  have hasked := answers_default hdefault traitSet
  rw [defaultFor_of_ne h] at hasked
  cases hfirst : state.firstWith? traitSet with
  | none =>
    rw [policyFor_of_noEntity hfirst]
    rw [hfirst] at hasked
    exact .noEntity hasked
  | some found =>
    obtain ⟨entity, source⟩ := found
    have hsource : state.entities.get? entity = some source :=
      (Dict.find?_entries_eq_some.mp hfirst).1
    have hdata := answers_resolve hresolve ⟨entity⟩ traitSet
    rw [resolved_eq_ok.mpr ⟨source, hsource, rfl⟩] at hdata
    rw [hfirst] at hasked
    refine .entity hasked hdata fun t => ?_
    rw [has_policyFor h hfirst, (extract_propertiesFor hsource traitSet).has]
    simp only [Store.property?, hsource, Option.bind_some]

-- ---------------------------------------------------------------- one policy for each trait set

theorem managementPolicy_of_ne {access : PolicyAccess} (h : access ≠ .read)
    (traitSets : List TraitSet) (state : State) :
    managementPolicy traitSets access state = traitSets.map fun _ => TraitsData.empty := by
  cases access with
  | read => exact absurd rfl h
  | _ => rfl

/-- The policies for trait sets come one for each set, in order, and none of them has a property.
For reading, each of them agrees with the entity that the manager takes for the set by default and
with what this entity resolves to; for any other access all of them are empty. -/
theorem policies_agree (state : State) (traitSets : List TraitSet) (access : PolicyAccess)
    (context : Context) (session : Session) :
    ∃ policies,
      manager.managementPolicy traitSets access context session state =
        ⟨state, [], .ok policies⟩ ∧
      policies.length = traitSets.length ∧
      (∀ policy ∈ policies, HasNoProperty policy) ∧
      (access ≠ .read → ∀ policy ∈ policies, policy = TraitsData.empty) ∧
      (access = .read → state.has .defaultEntityReferences = true →
        state.has .resolution = true → List.Forall₂ (PolicyAgrees state) traitSets policies) := by
  refine ⟨managementPolicy traitSets access state, rfl, ?_⟩
  by_cases haccess : access = .read
  · subst haccess
    refine ⟨List.length_map .., fun policy hpolicy => ?_, fun h => absurd rfl h,
      fun _ hdefault hresolve => ?_⟩
    · obtain ⟨traitSet, -, rfl⟩ := List.mem_map.mp hpolicy
      exact hasNoProperty_policyFor
    · refine List.forall₂_map_right_iff.mpr (List.forall₂_same.mpr fun traitSet _ => ?_)
      exact policyAgrees_policyFor hdefault hresolve traitSet
  · have hempty : ∀ policy ∈ traitSets.map fun _ => TraitsData.empty,
        policy = TraitsData.empty := by
      simp
    rw [managementPolicy_of_ne haccess]
    refine ⟨List.length_map .., fun policy hpolicy => ?_, fun _ => hempty,
      fun h => absurd h haccess⟩
    rw [hempty policy hpolicy]
    exact fun _ _ => rfl

/-- In the zoo the cat is the first that is named, and the only one that is tame, but nothing is
known about either; nobody is wild. -/
theorem zoo_policies_agree :
    let traitSets := [NameSet.ofList ["named"], NameSet.ofList ["tame"], NameSet.ofList ["wild"]]
    zoo.has .defaultEntityReferences = true ∧ zoo.has .resolution = true ∧
      List.Forall₂ (PolicyAgrees zoo) traitSets (managementPolicy traitSets .read zoo) := by
  intro traitSets
  have hdefault : zoo.has .defaultEntityReferences = true := by decide
  have hresolve : zoo.has .resolution = true := by decide
  obtain ⟨policies, hreply, -, -, -, hagree⟩ := policies_agree zoo traitSets .read Context.empty
    ⟨⟨"h", "H", Dict.empty⟩, .recording fun _ => true⟩
  cases hreply
  exact ⟨hdefault, hresolve, hagree rfl hdefault hresolve⟩

end EntityBroker.TableManager
