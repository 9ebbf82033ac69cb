import EntityBroker.Proofs.TableManager.Resolution
import EntityBroker.Proofs.Utf8.Spelling

/-!
# The queries of the table manager

Four operations ask about entities without changing them: whether one is there, which traits it
carries, what its properties are, and which entity to take for a trait set. `queries_agree`: with
their capabilities and under read access, what they answer is one story about the store, told
element by element.
-/

namespace EntityBroker.TableManager

variable {op : Operation} {ι : Type}

def queries : List Operation := [.entityExists, .entityTraits, .defaultEntityReference, .resolve]

-- ---------------------------------------------------------------- batches of elements

/-- The manager answers the request with the outcomes, in order, and stays as it is. -/
def Answers (state : State) (request : Request op) (outcomes : List (Outcome op.Answer)) : Prop :=
  ∀ context session,
    manager.batch op request context session state = ⟨state, [], inOrder outcomes, .ok ()⟩

/-- Each element of a batch has an outcome of its own, and batches put together have the outcomes of
the one and then those of the other. -/
structure AnswersEach (state : State) (ask : List ι → Request op) (one : ι → Outcome op.Answer) :
    Prop where
  each (xs : List ι) : Answers state (ask xs) (xs.map one)
  append (xs ys : List ι) {first second : List (Outcome op.Answer)}
    (hfirst : Answers state (ask xs) first) (hsecond : Answers state (ask ys) second) :
    Answers state (ask (xs ++ ys)) (first ++ second)

theorem outcome_inOrder {α : Type} (outcomes : List (Outcome α)) :
    (inOrder outcomes).map Delivery.outcome = outcomes := by
  have houtcome : Delivery.outcome ∘ (fun p : Outcome α × Nat => Delivery.mk p.2 p.1) = Prod.fst :=
    rfl
  rw [inOrder, List.map_map, houtcome, List.zipIdx_map_fst]

theorem Answers.unique {state : State} {request : Request op}
    {first second : List (Outcome op.Answer)} (hfirst : Answers state request first)
    (hsecond : Answers state request second) : first = second := by
  have hreply := (hfirst Context.empty ⟨⟨"", "", Dict.empty⟩, .recording fun _ => true⟩).symm.trans
    (hsecond _ _)
  have hdeliveries := congrArg BatchReply.deliveries hreply
  rw [← outcome_inOrder first, ← outcome_inOrder second]
  exact congrArg (List.map Delivery.outcome) hdeliveries

theorem answersEach_of_answer {state : State} (h : state.has (required op) = true)
    {ask : List ι → Request op} {one : ι → Outcome op.Answer}
    (hanswer : ∀ xs, answer state (ask xs) = (state, xs.map one)) :
    AnswersEach state ask one := by
  have heach : ∀ xs, Answers state (ask xs) (xs.map one) := by
    intro xs context session
    have hbatch := batch_of_has h (ask xs)
    rw [hanswer xs] at hbatch
    exact hbatch
  refine ⟨heach, fun xs ys first second hfirst hsecond => ?_⟩
  rw [hfirst.unique (heach xs), hsecond.unique (heach ys), ← List.map_append]
  exact heach (xs ++ ys)

-- ---------------------------------------------------------------- the story

/-- What can be asked about one entity or one trait set. -/
structure Story where
  present : EntityReference → Bool
  traits : EntityReference → Outcome TraitSet
  resolve : TraitSet → EntityReference → Outcome TraitsData
  default : TraitSet → Outcome (Option EntityReference)

/-- The four queries tell the story, under read access. -/
structure Told (state : State) (story : Story) : Prop where
  present : AnswersEach state Request.entityExists fun r => .ok (story.present r)
  traits : AnswersEach state (Request.entityTraits · .read) story.traits
  resolve (traitSet : TraitSet) :
    AnswersEach state (Request.resolve · traitSet .read) (story.resolve traitSet)
  default : AnswersEach state (Request.defaultEntityReference · .read) story.default

namespace Story

variable (story : Story)

/-- The reference exists and carries all the traits. -/
def Covers (traitSet : TraitSet) (r : EntityReference) : Prop :=
  ∃ carried, story.traits r = .ok carried ∧ ∀ t ∈ traitSet.toList, t ∈ carried.toList

/-- Covers the traits, and of all references that do it comes first by its bytes. -/
def FirstToCover (traitSet : TraitSet) (r : EntityReference) : Prop :=
  story.Covers traitSet r ∧ ∀ other, story.Covers traitSet other →
    other = r ∨ Utf8.encode r.text < Utf8.encode other.text

end Story

/-- The properties of the entity for the traits of the set, and no others; a trait for which it has
none is left out. -/
structure Extract (store : Store) (entity : String) (traitSet : TraitSet) (data : TraitsData) :
    Prop where
  has (t : String) : data.has t = true ↔
    t ∈ traitSet.toList ∧ ∃ key value, store.property? entity t key = some value
  get (t key : String) (value : Value) : data.get? t key = some value ↔
    t ∈ traitSet.toList ∧ store.property? entity t key = some value

/-- Holds the traits and the properties of both, and no others. -/
structure IsUnion (a b both : TraitsData) : Prop where
  has (t : String) : both.has t = true ↔ a.has t = true ∨ b.has t = true
  get (t key : String) (value : Value) :
    both.get? t key = some value ↔ a.get? t key = some value ∨ b.get? t key = some value

/-- The parts of the story fit each other and the store. -/
structure Coherent (store : Store) (story : Story) : Prop where
  present_iff_traits (r : EntityReference) :
    story.present r = true ↔ ∃ carried, story.traits r = .ok carried
  present_iff_resolve (r : EntityReference) (traitSet : TraitSet) :
    story.present r = true ↔ ∃ data, story.resolve traitSet r = .ok data
  carried {r : EntityReference} {carried : TraitSet} (h : story.traits r = .ok carried)
    (t : String) : t ∈ carried.toList ↔ store.Carries r.text t
  extract {r : EntityReference} {traitSet : TraitSet} {data : TraitsData}
    (h : story.resolve traitSet r = .ok data) : Extract store r.text traitSet data
  subset {r : EntityReference} {traitSet carried : TraitSet} {data : TraitsData}
    (h : story.resolve traitSet r = .ok data) (htraits : story.traits r = .ok carried)
    {t : String} (ht : data.has t = true) : t ∈ traitSet.toList ∧ t ∈ carried.toList
  union {r : EntityReference} {first second : TraitSet} {a b : TraitsData}
    (ha : story.resolve first r = .ok a) (hb : story.resolve second r = .ok b) :
    ∃ both, story.resolve (first.union second) r = .ok both ∧ IsUnion a b both
  default_some {traitSet : TraitSet} (h : traitSet.toList ≠ []) (r : EntityReference) :
    story.default traitSet = .ok (some r) ↔ story.FirstToCover traitSet r
  default_none {traitSet : TraitSet} (h : traitSet.toList ≠ []) :
    story.default traitSet = .ok none ↔ ∀ r, ¬ story.Covers traitSet r

def State.story (state : State) : Story where
  present r := state.entities.contains r.text
  traits := traitsOf state .read
  resolve traitSet := resolved state traitSet .read
  default := defaultFor state .read

theorem told_story {state : State} (h : ∀ op ∈ queries, state.has (required op) = true) :
    Told state state.story where
  present := answersEach_of_answer (h .entityExists (by decide)) fun _ => rfl
  traits := answersEach_of_answer (h .entityTraits (by decide)) fun _ => rfl
  resolve _ := answersEach_of_answer (h .resolve (by decide)) fun _ => rfl
  default := answersEach_of_answer (h .defaultEntityReference (by decide)) fun _ => rfl

-- ---------------------------------------------------------------- one entity

theorem traitsOf_eq_ok {state : State} {r : EntityReference} {carried : TraitSet} :
    traitsOf state .read r = .ok carried ↔
      ∃ source, state.entities.get? r.text = some source ∧ source.traitSet = carried := by
  cases h : state.entities.get? r.text <;> simp [traitsOf, h]

/-- A trait that data has comes with a property. -/
def NoBareTrait (data : TraitsData) : Prop :=
  ∀ t, data.has t = true → ∃ key value, data.get? t key = some value

theorem NoBareTrait.set {data : TraitsData} (h : NoBareTrait data) (t key : String)
    (value : Value) : NoBareTrait (data.set t key value) := by
  intro other hother
  rw [TraitsData.has_set, Bool.or_eq_true, decide_eq_true_eq] at hother
  by_cases hkey : other = t
  · subst hkey
    exact ⟨key, value, by simp [TraitsData.get?_set]⟩
  · obtain ⟨k, v, hget⟩ := h other (hother.resolve_left hkey)
    exact ⟨k, v, by simp [TraitsData.get?_set, hkey, hget]⟩

theorem noBareTrait_propertiesFor (source : TraitsData) (traitSet : TraitSet) :
    NoBareTrait (propertiesFor source traitSet) := by
  have hcopy : ∀ (target : TraitsData) (t : String), NoBareTrait target →
      NoBareTrait (copyTrait source target t) := by
    intro target t htarget
    exact List.foldlRecOn _ _ htarget fun data hdata p _ => hdata.set t p.1 p.2
  -- the copies start from no traits, so there is none without a property yet
  refine List.foldlRecOn _ _ ?_ fun target htarget t _ => hcopy target t htarget
  intro t ht
  cases ht

theorem extract_propertiesFor {store : Store} {entity : String} {source : TraitsData}
    (h : store.get? entity = some source) (traitSet : TraitSet) :
    Extract store entity traitSet (propertiesFor source traitSet) := by
  have hproperty : ∀ t key, store.property? entity t key = source.get? t key := by
    intro t key
    rw [Store.property?, h, Option.bind_some]
  have hget : ∀ t key value, (propertiesFor source traitSet).get? t key = some value ↔
      t ∈ traitSet.toList ∧ store.property? entity t key = some value := by
    intro t key value
    rw [get?_propertiesFor, Option.ite_none_right_eq_some, hproperty]
  refine ⟨fun t => ⟨fun ht => ?_, ?_⟩, hget⟩
  · obtain ⟨key, value, hvalue⟩ := noBareTrait_propertiesFor source traitSet t ht
    exact ⟨((hget t key value).mp hvalue).1, key, value, ((hget t key value).mp hvalue).2⟩
  · rintro ⟨ht, key, value, hvalue⟩
    exact TraitsData.has_of_get? ((hget t key value).mpr ⟨ht, hvalue⟩)

theorem Extract.union {store : Store} {entity : String} {first second : TraitSet}
    {a b both : TraitsData} (ha : Extract store entity first a) (hb : Extract store entity second b)
    (hboth : Extract store entity (first.union second) both) : IsUnion a b both where
  has t := by rw [hboth.has, ha.has, hb.has, NameSet.mem_union, or_and_right]
  get t key value := by rw [hboth.get, ha.get, hb.get, NameSet.mem_union, or_and_right]

-- ---------------------------------------------------------------- the entity for a trait set

theorem covers_iff {state : State} {traitSet : TraitSet} {r : EntityReference} :
    state.story.Covers traitSet r ↔ ∃ source, state.entities.get? r.text = some source ∧
      traitSet.toList.all source.has = true := by
  simp only [Story.Covers, State.story, traitsOf_eq_ok, List.all_eq_true]
  constructor
  · rintro ⟨_, ⟨source, hsource, rfl⟩, hall⟩
    exact ⟨source, hsource, fun t ht => TraitsData.mem_traitSet.mp (hall t ht)⟩
  · rintro ⟨source, hsource, hall⟩
    exact ⟨_, ⟨source, hsource, rfl⟩, fun t ht => TraitsData.mem_traitSet.mpr (hall t ht)⟩

theorem defaultFor_of_ne {traitSet : TraitSet} (h : traitSet.toList ≠ []) (state : State) :
    defaultFor state .read traitSet =
      .ok ((state.firstWith? traitSet).map fun e => ⟨e.1⟩) := by
  rw [defaultFor, if_neg (mt NameSet.isEmpty_iff.mp h)]

theorem firstToCover_iff {state : State} {traitSet : TraitSet} {r : EntityReference} :
    state.story.FirstToCover traitSet r ↔
      ∃ source, state.firstWith? traitSet = some (r.text, source) := by
  simp only [Story.FirstToCover, covers_iff, State.firstWith?, Dict.find?_entries_eq_some,
    Utf8.encode_lt_encode_iff]
  constructor
  · rintro ⟨⟨source, hsource, hall⟩, hfirst⟩
    refine ⟨source, hsource, hall, fun other data hdata hother => ?_⟩
    exact (hfirst ⟨other⟩ ⟨data, hdata, hother⟩).imp (congrArg EntityReference.text) id
  · rintro ⟨source, hsource, hall, hfirst⟩
    refine ⟨⟨source, hsource, hall⟩, fun other => ?_⟩
    rintro ⟨data, hdata, hother⟩
    exact (hfirst other.text data hdata hother).imp (congrArg EntityReference.mk) id

theorem not_covers_iff {state : State} {traitSet : TraitSet} :
    (∀ r, ¬ state.story.Covers traitSet r) ↔ state.firstWith? traitSet = none := by
  simp only [covers_iff, State.firstWith?, Dict.find?_entries_eq_none, Bool.eq_false_iff]
  constructor
  · intro h entity source hsource hall
    exact h ⟨entity⟩ ⟨source, hsource, hall⟩
  · rintro h r ⟨source, hsource, hall⟩
    exact h r.text source hsource hall

-- ---------------------------------------------------------------- one story

theorem coherent_story (state : State) : Coherent state.entities state.story where
  present_iff_traits r := by
    simp only [State.story, traitsOf_eq_ok, Dict.contains, Option.isSome_iff_exists]
    constructor
    · rintro ⟨source, h⟩
      exact ⟨_, source, h, rfl⟩
    · rintro ⟨_, source, h, -⟩
      exact ⟨source, h⟩
  present_iff_resolve r traitSet := by
    simp only [State.story, resolved_eq_ok, Dict.contains, Option.isSome_iff_exists]
    constructor
    · rintro ⟨source, h⟩
      exact ⟨_, source, h, rfl⟩
    · rintro ⟨_, source, h, -⟩
      exact ⟨source, h⟩
  carried {r carried} h t := by
    obtain ⟨source, hsource, rfl⟩ := traitsOf_eq_ok.mp h
    simp [TraitsData.mem_traitSet, Store.Carries, hsource]
  extract {r traitSet data} h := by
    obtain ⟨source, hsource, rfl⟩ := resolved_eq_ok.mp h
    exact extract_propertiesFor hsource traitSet
  subset {r traitSet carried data} h htraits {t} ht := by
    obtain ⟨source, hsource, rfl⟩ := resolved_eq_ok.mp h
    obtain ⟨other, hother, rfl⟩ := traitsOf_eq_ok.mp htraits
    cases hsource.symm.trans hother
    obtain ⟨hasked, key, value, hvalue⟩ :=
      ((extract_propertiesFor hsource traitSet).has t).mp ht
    rw [Store.property?, hsource, Option.bind_some] at hvalue
    exact ⟨hasked, TraitsData.mem_traitSet.mpr (TraitsData.has_of_get? hvalue)⟩
  union {r first second a b} ha hb := by
    obtain ⟨source, hsource, rfl⟩ := resolved_eq_ok.mp ha
    obtain ⟨other, hother, rfl⟩ := resolved_eq_ok.mp hb
    cases hsource.symm.trans hother
    refine ⟨_, resolved_eq_ok.mpr ⟨source, hsource, rfl⟩, ?_⟩
    exact (extract_propertiesFor hsource first).union (extract_propertiesFor hsource second)
      (extract_propertiesFor hsource (first.union second))
  default_some {traitSet} h r := by
    have hstory : state.story.default traitSet = defaultFor state .read traitSet := rfl
    rw [hstory, defaultFor_of_ne h, firstToCover_iff, Except.ok.injEq, Option.map_eq_some_iff]
    constructor
    · rintro ⟨⟨entity, source⟩, hfirst, rfl⟩
      exact ⟨source, hfirst⟩
    · rintro ⟨source, hfirst⟩
      exact ⟨(r.text, source), hfirst, rfl⟩
  default_none {traitSet} h := by
    have hstory : state.story.default traitSet = defaultFor state .read traitSet := rfl
    rw [hstory, defaultFor_of_ne h, not_covers_iff]
    simp

/-- With the capabilities of the four queries they tell one story under read access: an entity
exists if its traits are told, and if it can be resolved; resolving yields what the entity has for
the traits asked for, trait by trait; and the default entity is the first that carries them all. -/
theorem queries_agree {state : State} (h : ∀ op ∈ queries, state.has (required op) = true) :
    ∃ story, Told state story ∧ Coherent state.entities story :=
  ⟨state.story, told_story h, coherent_story state⟩

def zoo : State where
  settings := Dict.empty
  capabilities := queries.map required
  entities := Store.applyAll Dict.empty
    [.property "dog" "named" "name" (.text "Rex"), .traitOf "cat" "named", .traitOf "cat" "tame"]
  referencePrefix := ""
  readPolicy := ""

theorem zoo_queries_agree :
    (∀ op ∈ queries, zoo.has (required op) = true) ∧
      ∃ story, Told zoo story ∧ Coherent zoo.entities story :=
  have h : ∀ op ∈ queries, zoo.has (required op) = true := by decide
  ⟨h, queries_agree h⟩

end EntityBroker.TableManager
