import Mathlib.Data.List.Basic
import EntityBroker.TableManager.Store

/-!
# What writes leave in a store

Three look-ups tell a store: whether an entity is there, whether it carries a trait, and what a
property of it holds. After any writes an entity or a trait is there if it was before or a write
names it, and a property holds what the last write to it says.
-/

namespace EntityBroker.TableManager

namespace Write

def entityNamed : Write → String
  | .entity e => e
  | .traitOf e _ => e
  | .property e _ _ _ => e

def NamesTrait (entity traitId : String) : Write → Prop
  | .entity _ => False
  | .traitOf e t => e = entity ∧ t = traitId
  | .property e t _ _ => e = entity ∧ t = traitId

/-- The value that a write gives to a property, if it gives it one. -/
def valueFor? (entity traitId key : String) : Write → Option Value
  | .property e t k v => if e = entity ∧ t = traitId ∧ k = key then some v else none
  | _ => none

theorem valueFor?_eq_some {w : Write} {entity traitId key : String} {v : Value} :
    w.valueFor? entity traitId key = some v ↔ w = .property entity traitId key v := by
  cases w with
  | property e t k v' =>
    simp only [valueFor?, Option.ite_none_right_eq_some, Option.some.injEq, property.injEq,
      and_assoc]
  | _ => simp [valueFor?]

/-- What a write does to the data of the entity that it names. -/
def onData : Write → TraitsData → TraitsData
  | .entity _, data => data
  | .traitOf _ t, data => data.addTrait t
  | .property _ t k v, data => data.set t k v

end Write

namespace Store

def Carries (store : Store) (entity traitId : String) : Prop :=
  ∃ data, store.get? entity = some data ∧ data.has traitId = true

def property? (store : Store) (entity traitId key : String) : Option Value :=
  (store.get? entity).bind fun data => data.get? traitId key

-- ---------------------------------------------------------------- one write

theorem get?_apply (store : Store) (w : Write) (entity : String) :
    (store.apply w).get? entity =
      if entity = w.entityNamed then some (w.onData (ofEntity (store.get? entity)))
      else store.get? entity := by
  by_cases h : entity = w.entityNamed
  · subst h
    cases w <;> simp [apply, Dict.get?_update, Write.entityNamed, Write.onData]
  · cases w <;> simp_all [apply, Dict.get?_update, Write.entityNamed]

theorem contains_apply (store : Store) (w : Write) (entity : String) :
    (store.apply w).contains entity = true ↔
      w.entityNamed = entity ∨ store.contains entity = true := by
  by_cases h : entity = w.entityNamed
  · simp [Dict.contains, get?_apply, h]
  · simp [Dict.contains, get?_apply, h, Ne.symm h]

theorem carries_iff (store : Store) (entity traitId : String) :
    store.Carries entity traitId ↔ (ofEntity (store.get? entity)).has traitId = true := by
  cases h : store.get? entity <;>
    simp [Carries, ofEntity, h, TraitsData.has, TraitsData.empty, Dict.contains]

theorem property?_eq (store : Store) (entity traitId key : String) :
    store.property? entity traitId key = (ofEntity (store.get? entity)).get? traitId key := by
  cases h : store.get? entity <;>
    simp [property?, ofEntity, h, TraitsData.get?, TraitsData.empty]

theorem carries_apply (store : Store) (w : Write) (entity traitId : String) :
    (store.apply w).Carries entity traitId ↔
      w.NamesTrait entity traitId ∨ store.Carries entity traitId := by
  rw [carries_iff, carries_iff, get?_apply]
  by_cases h : entity = w.entityNamed
  · subst h
    rw [if_pos rfl]
    cases w with
    | entity e => simp [Write.NamesTrait, Write.onData, ofEntity]
    | traitOf e t =>
      simp [Write.NamesTrait, Write.onData, Write.entityNamed, ofEntity, TraitsData.has_addTrait,
        @eq_comm _ t]
    | property e t k v =>
      simp [Write.NamesTrait, Write.onData, Write.entityNamed, ofEntity, TraitsData.has_set,
        @eq_comm _ t]
  · rw [if_neg h]
    have hn : ¬ w.NamesTrait entity traitId := by
      cases w <;> simp_all [Write.NamesTrait, Write.entityNamed, eq_comm]
    simp [hn]

theorem property?_apply (store : Store) (w : Write) (entity traitId key : String) :
    (store.apply w).property? entity traitId key =
      (w.valueFor? entity traitId key).or (store.property? entity traitId key) := by
  rw [property?_eq, property?_eq, get?_apply]
  by_cases h : entity = w.entityNamed
  · subst h
    rw [if_pos rfl]
    cases w with
    | entity e => simp [Write.valueFor?, Write.onData, ofEntity]
    | traitOf e t =>
      simp [Write.valueFor?, Write.onData, Write.entityNamed, ofEntity, TraitsData.get?_addTrait]
    | property e t k v =>
      by_cases htk : t = traitId ∧ k = key
      · obtain ⟨rfl, rfl⟩ := htk
        simp [Write.valueFor?, Write.onData, Write.entityNamed, ofEntity, TraitsData.get?_set]
      · have hkt : ¬ (traitId = t ∧ key = k) := fun hk => htk ⟨hk.1.symm, hk.2.symm⟩
        simp [Write.valueFor?, Write.onData, Write.entityNamed, ofEntity, TraitsData.get?_set, htk,
          hkt]
  · rw [if_neg h]
    have hn : w.valueFor? entity traitId key = none := by
      cases w <;> simp_all [Write.valueFor?, Write.entityNamed, eq_comm]
    simp [hn]

-- ---------------------------------------------------------------- many writes

@[simp] theorem applyAll_nil (store : Store) : store.applyAll [] = store := rfl

@[simp] theorem applyAll_cons (store : Store) (w : Write) (writes : List Write) :
    store.applyAll (w :: writes) = (store.apply w).applyAll writes := rfl

theorem applyAll_append (store : Store) (writes later : List Write) :
    store.applyAll (writes ++ later) = (store.applyAll writes).applyAll later :=
  List.foldl_append

theorem contains_applyAll (store : Store) (writes : List Write) (entity : String) :
    (store.applyAll writes).contains entity = true ↔
      (∃ w ∈ writes, w.entityNamed = entity) ∨ store.contains entity = true := by
  induction writes generalizing store with
  | nil => simp
  | cons w rest ih =>
    rw [applyAll_cons, ih, contains_apply]
    simp only [List.mem_cons, exists_eq_or_imp]
    rw [or_left_comm, or_assoc]

theorem carries_applyAll (store : Store) (writes : List Write) (entity traitId : String) :
    (store.applyAll writes).Carries entity traitId ↔
      (∃ w ∈ writes, w.NamesTrait entity traitId) ∨ store.Carries entity traitId := by
  induction writes generalizing store with
  | nil => simp
  | cons w rest ih =>
    rw [applyAll_cons, ih, carries_apply]
    simp only [List.mem_cons, exists_eq_or_imp]
    rw [or_left_comm, or_assoc]

/-- The last write to a property decides what it holds. -/
theorem property?_applyAll (store : Store) (writes : List Write) (entity traitId key : String) :
    (store.applyAll writes).property? entity traitId key =
      (writes.filterMap (Write.valueFor? entity traitId key)).getLast?.or
        (store.property? entity traitId key) :=
  lookUp_foldl (fun store : Store => store.property? entity traitId key) _
    (fun store w => store.property?_apply w entity traitId key) writes store

end Store

-- ---------------------------------------------------------------- the writes of data

theorem mem_writesOfData {reference : EntityReference} {data : TraitsData} {w : Write} :
    w ∈ writesOfData reference data ↔
      w = .entity reference.text ∨
        (∃ t, data.has t = true ∧ w = .traitOf reference.text t) ∨
        ∃ t k v, data.get? t k = some v ∧ w = .property reference.text t k v := by
  have hentries : ∀ (t : String) (properties : Dict Value),
      (t, properties) ∈ data.traits.entries ↔ data.traits.get? t = some properties :=
    fun _ _ => Dict.mem_entries
  simp only [writesOfData, TraitsData.properties, List.mem_cons, List.flatMap_map,
    List.mem_flatMap, List.mem_map, Prod.exists, hentries, Dict.mem_entries]
  refine or_congr_right ⟨?_, ?_⟩
  · rintro ⟨t, properties, hproperties, rfl | ⟨k, v, hvalue, rfl⟩⟩
    · exact .inl ⟨t, Option.isSome_iff_exists.mpr ⟨properties, hproperties⟩, rfl⟩
    · exact .inr ⟨t, k, v, Option.bind_eq_some_iff.mpr ⟨properties, hproperties, hvalue⟩, rfl⟩
  · rintro (⟨t, ht, rfl⟩ | ⟨t, k, v, hvalue, rfl⟩)
    · obtain ⟨properties, hproperties⟩ := Option.isSome_iff_exists.mp ht
      exact ⟨t, properties, hproperties, .inl rfl⟩
    · obtain ⟨properties, hproperties, hget⟩ := Option.bind_eq_some_iff.mp hvalue
      exact ⟨t, properties, hproperties, .inr ⟨k, v, hget, rfl⟩⟩

theorem entityNamed_of_mem_writesOfData {reference : EntityReference} {data : TraitsData}
    {w : Write} (h : w ∈ writesOfData reference data) : w.entityNamed = reference.text := by
  rcases mem_writesOfData.mp h with rfl | ⟨t, -, rfl⟩ | ⟨t, k, v, -, rfl⟩ <;> rfl

theorem exists_namesTrait_writesOfData {reference : EntityReference} {data : TraitsData}
    {entity traitId : String} :
    (∃ w ∈ writesOfData reference data, w.NamesTrait entity traitId) ↔
      reference.text = entity ∧ data.has traitId = true := by
  simp only [mem_writesOfData]
  constructor
  · rintro ⟨w, rfl | ⟨t, ht, rfl⟩ | ⟨t, k, v, hvalue, rfl⟩, hnames⟩
    · cases hnames
    · obtain ⟨hentity, rfl⟩ := hnames
      exact ⟨hentity, ht⟩
    · obtain ⟨hentity, rfl⟩ := hnames
      exact ⟨hentity, TraitsData.has_of_get? hvalue⟩
  · rintro ⟨hentity, htrait⟩
    exact ⟨_, .inr (.inl ⟨traitId, htrait, rfl⟩), hentity, rfl⟩

section
variable (entity traitId key : String)

theorem filterMap_writesOfProperties (e t : String) (properties : Dict Value) :
    (properties.entries.map fun p => Write.property e t p.1 p.2).filterMap
        (Write.valueFor? entity traitId key) =
      if e = entity ∧ t = traitId then (properties.get? key).toList else [] := by
  rw [List.filterMap_map, List.filterMap_eq_flatMap_toList]
  by_cases h : e = entity ∧ t = traitId
  · have hvalues : ∀ p : String × Value,
        (Write.valueFor? entity traitId key (.property e t p.1 p.2)).toList =
          if p.1 = key then [p.2] else [] := by
      intro p
      by_cases hp : p.1 = key <;> simp [Write.valueFor?, h, hp]
    have hfound := properties.flatMap_entries key fun v => [v]
    simp only [Function.comp_apply, hvalues, hfound, if_pos h]
    cases properties.get? key <;> rfl
  · rw [if_neg h, List.flatMap_eq_nil_iff]
    intro p _
    have hnone : ¬ (e = entity ∧ t = traitId ∧ p.1 = key) := fun hp => h ⟨hp.1, hp.2.1⟩
    simp [Write.valueFor?, hnone]

/-- The writes of data give a property the value that the data has for it, and no other. -/
theorem filterMap_writesOfData (reference : EntityReference) (data : TraitsData) :
    (writesOfData reference data).filterMap (Write.valueFor? entity traitId key) =
      if reference.text = entity then (data.get? traitId key).toList else [] := by
  rw [writesOfData, List.filterMap_cons_none rfl, TraitsData.properties, List.flatMap_map,
    List.filterMap_flatMap]
  have htrait : ∀ e : String × Dict Value,
      (Write.traitOf reference.text e.1 :: e.2.entries.map fun p =>
          Write.property reference.text e.1 p.1 p.2).filterMap
        (Write.valueFor? entity traitId key) =
      if e.1 = traitId then
        if reference.text = entity then (e.2.get? key).toList else []
      else [] := by
    intro e
    rw [List.filterMap_cons_none rfl, filterMap_writesOfProperties]
    by_cases ht : e.1 = traitId <;> simp [ht]
  have hfound := data.traits.flatMap_entries traitId fun properties =>
    if reference.text = entity then (properties.get? key).toList else []
  simp only [htrait, hfound, TraitsData.get?]
  cases data.traits.get? traitId <;> simp

end

end EntityBroker.TableManager
