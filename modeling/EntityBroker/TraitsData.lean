import EntityBroker.Error
import EntityBroker.Value

/-!
# Traits and their properties

A trait is a name; an entity's data holds a set of traits, each with named properties. Setting a
property adds its trait, and adding a trait that is there leaves its properties alone.
-/

namespace EntityBroker

abbrev TraitSet := NameSet

structure TraitsData where
  traits : Dict (Dict Value)
  deriving DecidableEq

namespace TraitsData

def empty : TraitsData := ⟨Dict.empty⟩

instance : Inhabited TraitsData := ⟨empty⟩

/-- The properties of a trait that is being added: those it has, or none. -/
def keepProperties (properties : Option (Dict Value)) : Dict Value := properties.getD Dict.empty

def addTrait (data : TraitsData) (traitId : String) : TraitsData :=
  ⟨data.traits.update traitId keepProperties⟩

def addTraits (data : TraitsData) (traitSet : TraitSet) : TraitsData :=
  traitSet.toList.foldl addTrait data

def ofTraits (traitSet : TraitSet) : TraitsData := empty.addTraits traitSet

def set (data : TraitsData) (traitId key : String) (value : Value) : TraitsData :=
  ⟨data.traits.update traitId (fun properties => (keepProperties properties).insert key value)⟩

def traitSet (data : TraitsData) : TraitSet := data.traits.map (fun _ => ())

def has (data : TraitsData) (traitId : String) : Bool := data.traits.contains traitId

def get? (data : TraitsData) (traitId key : String) : Option Value :=
  (data.traits.get? traitId).bind (fun properties => properties.get? key)

/-- The names of a trait's properties; none for a trait that is not there. -/
def propertyKeys (data : TraitsData) (traitId : String) : NameSet :=
  (keepProperties (data.traits.get? traitId)).map (fun _ => ())

def isEmpty (data : TraitsData) : Bool := data.traits.isEmpty

/-- A copy of data that a caller may have left out. -/
def copyOf : Option TraitsData → Except Error TraitsData
  | some data => .ok data
  | none => .error (.inputValidation "Cannot copy-construct from a null TraitsData")

/-- Both lists name the same keys in the same order with the same values. -/
def sameEntries {β : Type} (same : β → β → Bool) : List (String × β) → List (String × β) → Bool
  | [], [] => true
  | (k, v) :: rest, (j, w) :: others => k == j && same v w && sameEntries same rest others
  | _, _ => false

/-- The same traits with the same property names, and values that compare equal. -/
def same (a b : TraitsData) : Bool :=
  sameEntries (fun p q => sameEntries Value.same p.entries q.entries) a.traits.entries
    b.traits.entries

/-- Every trait with its properties in turn, as changes that rebuild the data. -/
def properties (data : TraitsData) : List (String × List (String × Value)) :=
  data.traits.entries.map (fun e => (e.1, e.2.entries))

def toJson (data : TraitsData) : Json :=
  Json.ofDict (data.traits.map (fun properties => Json.ofDict (properties.map Value.toJson)))

-- ---------------------------------------------------------------- look-up

theorem get?_keepProperties (properties : Option (Dict Value)) (key : String) :
    (keepProperties properties).get? key = properties.bind (fun p => p.get? key) := by
  cases properties <;> rfl

theorem has_addTrait (data : TraitsData) (traitId other : String) :
    (data.addTrait traitId).has other = (decide (other = traitId) || data.has other) :=
  Dict.contains_update ..

theorem get?_addTrait (data : TraitsData) (traitId other key : String) :
    (data.addTrait traitId).get? other key = data.get? other key := by
  by_cases h : other = traitId
  · subst h
    simp [get?, addTrait, Dict.get?_update, get?_keepProperties]
  · simp [get?, addTrait, Dict.get?_update, h]

theorem has_addAll (data : TraitsData) (traitIds : List String) (other : String) :
    (traitIds.foldl addTrait data).has other = true ↔ other ∈ traitIds ∨ data.has other = true := by
  induction traitIds generalizing data with
  | nil => simp
  | cons first rest ih =>
    rw [List.foldl_cons, ih, has_addTrait, List.mem_cons, Bool.or_eq_true, decide_eq_true_eq,
      or_left_comm, or_assoc]

theorem get?_addAll (data : TraitsData) (traitIds : List String) (other key : String) :
    (traitIds.foldl addTrait data).get? other key = data.get? other key := by
  induction traitIds generalizing data with
  | nil => rfl
  | cons first rest ih => rw [List.foldl_cons, ih, get?_addTrait]

theorem mem_traitSet {data : TraitsData} {traitId : String} :
    traitId ∈ data.traitSet.toList ↔ data.has traitId = true := by
  rw [NameSet.toList, Dict.mem_keys, traitSet, Dict.get?_map, Option.isSome_map, has, Dict.contains]

theorem has_of_get? {data : TraitsData} {traitId key : String} {value : Value}
    (h : data.get? traitId key = some value) : data.has traitId = true := by
  obtain ⟨properties, hproperties, -⟩ := Option.bind_eq_some_iff.mp h
  rw [has, Dict.contains, hproperties]
  rfl

theorem get?_of_not_has {data : TraitsData} {traitId : String} (h : data.has traitId = false)
    (key : String) : data.get? traitId key = none := by
  rw [Option.eq_none_iff_forall_ne_some]
  intro value hvalue
  rw [has_of_get? hvalue] at h
  cases h

theorem has_set (data : TraitsData) (traitId key : String) (value : Value) (other : String) :
    (data.set traitId key value).has other = (decide (other = traitId) || data.has other) :=
  Dict.contains_update ..

theorem get?_set (data : TraitsData) (traitId key : String) (value : Value)
    (other otherKey : String) :
    (data.set traitId key value).get? other otherKey =
      if other = traitId ∧ otherKey = key then some value else data.get? other otherKey := by
  by_cases h : other = traitId
  · subst h
    simp [get?, set, Dict.get?_update, Dict.get?_insert, get?_keepProperties]
  · simp [get?, set, Dict.get?_update, h]

/-- Data is what its traits and their properties are. -/
theorem ext {a b : TraitsData} (hhas : ∀ t, a.has t = b.has t)
    (hget : ∀ t k, a.get? t k = b.get? t k) : a = b := by
  have htraits : a.traits = b.traits := Dict.ext_contains hhas fun t p q hp hq =>
    Dict.ext_get? fun k => by simpa only [get?, hp, hq, Option.bind_some] using hget t k
  cases a
  cases b
  exact congrArg TraitsData.mk htraits

end TraitsData

end EntityBroker
