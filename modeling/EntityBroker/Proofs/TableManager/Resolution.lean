import EntityBroker.Proofs.TableManager.Contract
import EntityBroker.Proofs.TableManager.Writes

/-!
# What resolving yields

Resolving copies, trait by trait, the properties that the entity has for the traits asked for.
`resolves_iff` reads the reply for one entity and one trait as a look-up in the store.
-/

namespace EntityBroker.TableManager

-- ---------------------------------------------------------------- copying properties

theorem get?_setAll {entries : List (String × Value)}
    (h : entries.Pairwise fun a b => a.1 < b.1) (target : TraitsData)
    (traitId other key : String) :
    (entries.foldl (fun data p => data.set traitId p.1 p.2) target).get? other key =
      if other = traitId then (entries.lookup key).or (target.get? other key)
      else target.get? other key := by
  induction entries generalizing target with
  | nil => simp
  | cons head rest ih =>
    obtain ⟨k, v⟩ := head
    obtain ⟨hk, hr⟩ := List.pairwise_cons.mp h
    rw [List.foldl_cons, ih hr, TraitsData.get?_set]
    by_cases hother : other = traitId
    · subst hother
      by_cases hkey : key = k
      · subst hkey
        simp [Dict.lookup_eq_none_of_lt hk]
      · simp [List.lookup_cons, hkey, beq_eq_false_iff_ne.mpr hkey]
    · simp [hother]

theorem get?_copyTrait (source target : TraitsData) (traitId other key : String) :
    (copyTrait source target traitId).get? other key =
      if other = traitId then (source.get? traitId key).or (target.get? other key)
      else target.get? other key := by
  have hsource : ((source.traits.get? traitId).getD Dict.empty).entries.lookup key =
      source.get? traitId key := by
    rw [TraitsData.get?]
    cases source.traits.get? traitId <;> rfl
  rw [copyTrait, get?_setAll (Dict.ascending _), hsource]

theorem get?_copyTraits (source : TraitsData) (traitIds : List String) (target : TraitsData)
    (traitId key : String) :
    (traitIds.foldl (copyTrait source) target).get? traitId key =
      if traitId ∈ traitIds then (source.get? traitId key).or (target.get? traitId key)
      else target.get? traitId key := by
  induction traitIds generalizing target with
  | nil => simp
  | cons first rest ih =>
    rw [List.foldl_cons, ih, get?_copyTrait]
    by_cases hfirst : traitId = first
    · subst hfirst
      by_cases hrest : traitId ∈ rest <;> simp [hrest, ← Option.or_assoc]
    · simp [hfirst]

theorem get?_propertiesFor (source : TraitsData) (traitSet : TraitSet) (traitId key : String) :
    (propertiesFor source traitSet).get? traitId key =
      if traitId ∈ traitSet.toList then source.get? traitId key else none := by
  have hempty : TraitsData.empty.get? traitId key = none := rfl
  rw [propertiesFor, get?_copyTraits, hempty, Option.or_none]

-- ---------------------------------------------------------------- one entity, one trait

/-- Resolving the entity for the trait alone yields the value for the key. -/
def Resolves (state : State) (entity traitId key : String) (value : Value) : Prop :=
  ∃ data : TraitsData, data.get? traitId key = some value ∧ ∀ context session,
    manager.batch .resolve (.resolve [⟨entity⟩] (NameSet.ofList [traitId]) .read) context session
      state = ⟨state, [], [⟨0, .ok data⟩], .ok ()⟩

theorem resolved_eq_ok {state : State} {traitSet : TraitSet} {reference : EntityReference}
    {data : TraitsData} :
    resolved state traitSet .read reference = .ok data ↔
      ∃ source, state.entities.get? reference.text = some source ∧
        propertiesFor source traitSet = data := by
  cases h : state.entities.get? reference.text <;> simp [resolved, h]

theorem batch_resolve_of_has {state : State} (h : state.has .resolution = true) (entity : String)
    (traitSet : TraitSet) (context : Context) (session : Session) :
    manager.batch .resolve (.resolve [⟨entity⟩] traitSet .read) context session state =
      ⟨state, [], [⟨0, resolved state traitSet .read ⟨entity⟩⟩], .ok ()⟩ := by
  have hrequired : state.has (required .resolve) = true := h
  exact batch_of_has hrequired (.resolve [⟨entity⟩] traitSet .read)

theorem resolves_iff {state : State} {entity traitId key : String} {value : Value} :
    Resolves state entity traitId key value ↔
      state.has .resolution = true ∧ state.entities.property? entity traitId key = some value := by
  have hasked : ∀ source : TraitsData,
      (propertiesFor source (NameSet.ofList [traitId])).get? traitId key =
        source.get? traitId key := by
    intro source
    rw [get?_propertiesFor, if_pos]
    exact List.mem_singleton_self traitId
  constructor
  · rintro ⟨data, hdata, hreply⟩
    have hbatch := hreply Context.empty ⟨⟨"", "", Dict.empty⟩, .recording fun _ => true⟩
    cases hp : state.has .resolution with
    | false =>
      -- A refusal delivers nothing, so the reply cannot be the one with the data.
      have hrequired : state.has (required .resolve) = false := hp
      simp [manager, batch_of_not_has hrequired] at hbatch
    | true =>
      rw [batch_resolve_of_has hp] at hbatch
      have hresolved : resolved state (NameSet.ofList [traitId]) .read ⟨entity⟩ = .ok data := by
        simpa using hbatch
      obtain ⟨source, hsource, rfl⟩ := resolved_eq_ok.mp hresolved
      rw [hasked] at hdata
      exact ⟨rfl, Option.bind_eq_some_iff.mpr ⟨source, hsource, hdata⟩⟩
  · rintro ⟨hp, hproperty⟩
    obtain ⟨source, hsource, hvalue⟩ := Option.bind_eq_some_iff.mp hproperty
    refine ⟨_, (hasked source).trans hvalue, fun context session => ?_⟩
    rw [batch_resolve_of_has hp, resolved_eq_ok.mpr ⟨source, hsource, rfl⟩]

end EntityBroker.TableManager
