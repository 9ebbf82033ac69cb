import Mathlib.Data.List.Forall2
import EntityBroker.Proofs.TraitsData.Same

/-!
# Data and what was done to it

Programs make bags of traits, copy them and change them in place. `histories` says of each bag which
changes went into it, first those of the bag that it was copied from. What a bag answers can be read
off its history (`bags_follow_histories`). So bags with the same traits and the same last values are
one and the same data, in whatever order they came to it, and only a NaN keeps them from comparing
equal.
-/

namespace EntityBroker.TraitsData

-- ---------------------------------------------------------------- changes

inductive Change
  | trait (traitId : String)
  | property (traitId key : String) (value : Value)

/-- The trait that a change names. -/
def Change.traitId : Change → String
  | .trait traitId => traitId
  | .property traitId _ _ => traitId

/-- What a change sets a property to, if it sets it. -/
def Change.valueFor? (traitId key : String) : Change → Option Value
  | .trait _ => none
  | .property other otherKey value =>
    if traitId = other ∧ key = otherKey then some value else none

def Change.apply (data : TraitsData) : Change → TraitsData
  | .trait traitId => data.addTrait traitId
  | .property traitId key value => data.set traitId key value

def Mentions (history : List Change) (traitId : String) : Prop :=
  ∃ change ∈ history, change.traitId = traitId

def lastValue (history : List Change) (traitId key : String) : Option Value :=
  (history.filterMap (Change.valueFor? traitId key)).getLast?

/-- The changes that add a set of traits. -/
def additions (traitSet : TraitSet) : List Change := traitSet.toList.map .trait

theorem addTraits_eq (data : TraitsData) (traitSet : TraitSet) :
    data.addTraits traitSet = (additions traitSet).foldl Change.apply data := by
  rw [addTraits, additions, List.foldl_map]
  rfl

/-- What data answers is what the changes to it say. -/
structure Described (history : List Change) (data : TraitsData) : Prop where
  has : ∀ t, data.has t = true ↔ Mentions history t
  get : ∀ t k, data.get? t k = lastValue history t k

theorem Described.empty : Described [] empty where
  has t := by simp [Mentions, TraitsData.has, TraitsData.empty, Dict.contains]
  get _ _ := rfl

theorem has_apply (data : TraitsData) (change : Change) (t : String) :
    (change.apply data).has t = (decide (t = change.traitId) || data.has t) := by
  cases change with
  | trait traitId => exact has_addTrait data traitId t
  | property traitId key value => exact has_set data traitId key value t

theorem get?_apply (data : TraitsData) (change : Change) (t k : String) :
    (change.apply data).get? t k = (change.valueFor? t k).or (data.get? t k) := by
  cases change with
  | trait traitId => exact get?_addTrait data traitId t k
  | property traitId key value =>
    simp only [Change.apply, get?_set, Change.valueFor?]
    split <;> rfl

theorem mentions_concat {history : List Change} {change : Change} {t : String} :
    Mentions (history ++ [change]) t ↔ t = change.traitId ∨ Mentions history t := by
  simp only [Mentions, List.mem_append, List.mem_singleton, or_and_right, exists_or,
    exists_eq_left]
  rw [or_comm, eq_comm]

theorem lastValue_concat (history : List Change) (change : Change) (t k : String) :
    lastValue (history ++ [change]) t k =
      (change.valueFor? t k).or (lastValue history t k) := by
  simp only [lastValue, List.filterMap_append, List.getLast?_append]
  cases h : change.valueFor? t k <;> simp [h]

variable {history past : List Change} {data a b : TraitsData}

theorem Described.change (h : Described history data) (change : Change) :
    Described (history ++ [change]) (change.apply data) where
  has t := by simp [has_apply, mentions_concat, h.has]
  get t k := by rw [get?_apply, lastValue_concat, h.get]

theorem Described.changes (h : Described history data) (changes : List Change) :
    Described (history ++ changes) (changes.foldl Change.apply data) := by
  induction changes generalizing history data with
  | nil => simpa using h
  | cons change rest ih => simpa using ih (h.change change)

-- ---------------------------------------------------------------- programs

/-- What a program does with its bags, which it numbers from zero. -/
inductive Call
  | new
  | ofTraits (traitSet : TraitSet)
  | copy (source : Option Nat)
  | addTrait (bag : Nat) (traitId : String)
  | addTraits (bag : Nat) (traitSet : TraitSet)
  | set (bag : Nat) (traitId key : String) (value : Value)

/-- The bags after a call. A copy that is refused makes none. -/
def after (bags : List TraitsData) : Call → List TraitsData
  | .new => bags ++ [empty]
  | .ofTraits traitSet => bags ++ [ofTraits traitSet]
  | .copy source => bags ++ (copyOf (source.bind (bags[·]?))).toOption.toList
  | .addTrait bag traitId => bags.modify bag (·.addTrait traitId)
  | .addTraits bag traitSet => bags.modify bag (·.addTraits traitSet)
  | .set bag traitId key value => bags.modify bag (·.set traitId key value)

def run (calls : List Call) : List TraitsData := calls.foldl after []

/-- The histories after a call, which do not look at any data. -/
def record (histories : List (List Change)) : Call → List (List Change)
  | .new => histories ++ [[]]
  | .ofTraits traitSet => histories ++ [additions traitSet]
  | .copy source => histories ++ (source.bind (histories[·]?)).toList
  | .addTrait bag traitId => histories.modify bag (· ++ [.trait traitId])
  | .addTraits bag traitSet => histories.modify bag (· ++ additions traitSet)
  | .set bag traitId key value => histories.modify bag (· ++ [.property traitId key value])

def histories (calls : List Call) : List (List Change) := calls.foldl record []

-- ---------------------------------------------------------------- one call

section
variable {α β : Type} {R : α → β → Prop} {xs : List α} {ys : List β}

theorem forall₂_modify {f : α → α} {g : β → β} (h : List.Forall₂ R xs ys)
    (hstep : ∀ x y, R x y → R (f x) (g y)) (i : Nat) :
    List.Forall₂ R (xs.modify i f) (ys.modify i g) := by
  induction h generalizing i with
  | nil => simp
  | cons hxy hrest ih =>
    cases i with
    | zero => exact .cons (hstep _ _ hxy) hrest
    | succ i => exact .cons hxy (ih i)

theorem rel_getElem? (h : List.Forall₂ R xs ys) (i : Nat) : Option.Rel R xs[i]? ys[i]? := by
  induction h generalizing i with
  | nil => exact .none
  | cons hxy _ ih =>
    cases i with
    | zero => exact .some hxy
    | succ i => simpa using ih i

theorem forall₂_toList {v : Option α} {w : Option β} (h : Option.Rel R v w) :
    List.Forall₂ R v.toList w.toList := by
  cases h with
  | none => exact .nil
  | some hxy => exact .cons hxy .nil

end

theorem toOption_copyOf (source : Option TraitsData) : (copyOf source).toOption = source := by
  cases source <;> rfl

/-- Each bag has its history. -/
abbrev AllDescribed (histories : List (List Change)) (bags : List TraitsData) : Prop :=
  List.Forall₂ Described histories bags

theorem AllDescribed.after {histories : List (List Change)} {bags : List TraitsData}
    (h : AllDescribed histories bags) (call : Call) :
    AllDescribed (record histories call) (after bags call) := by
  have more : ∀ {history data}, Described history data →
      AllDescribed (histories ++ [history]) (bags ++ [data]) :=
    fun hdata => List.rel_append h (.cons hdata .nil)
  cases call with
  | new => exact more .empty
  | ofTraits traitSet =>
    refine more ?_
    rw [ofTraits, addTraits_eq]
    exact Described.empty.changes (additions traitSet)
  | copy source =>
    simp only [record, TraitsData.after, toOption_copyOf]
    refine List.rel_append h ?_
    cases source with
    | none => exact .nil
    | some source => exact forall₂_toList (rel_getElem? h source)
  | addTrait bag traitId =>
    exact forall₂_modify h (fun _ _ hdata => hdata.change (.trait traitId)) bag
  | addTraits bag traitSet =>
    refine forall₂_modify h (fun history data hdata => ?_) bag
    rw [addTraits_eq]
    exact hdata.changes (additions traitSet)
  | set bag traitId key value =>
    exact forall₂_modify h (fun _ _ hdata => hdata.change (.property traitId key value)) bag

theorem allDescribed_run (calls : List Call) : AllDescribed (histories calls) (run calls) := by
  suffices h : ∀ past bags, AllDescribed past bags →
      AllDescribed (calls.foldl record past) (calls.foldl TraitsData.after bags) from h [] [] .nil
  induction calls with
  | nil => exact fun _ _ h => h
  | cons call rest ih => exact fun _ _ h => ih _ _ (h.after call)

-- ---------------------------------------------------------------- what bags answer

theorem mem_propertyKeys {data : TraitsData} {t k : String} :
    k ∈ (data.propertyKeys t).toList ↔ (data.get? t k).isSome = true := by
  rw [NameSet.toList, Dict.mem_keys, propertyKeys, Dict.get?_map, Option.isSome_map,
    get?_keepProperties, get?]

theorem isEmpty_iff {data : TraitsData} : data.isEmpty = true ↔ data.traitSet.toList = [] := by
  rw [isEmpty, NameSet.toList, traitSet, Dict.keys_map, Dict.isEmpty, List.isEmpty_iff, Dict.keys,
    List.map_eq_nil_iff]

/-- Everything that a bag answers, read off its history. -/
structure Follows (history : List Change) (data : TraitsData) : Prop
    extends Described history data where
  traitSet : ∀ t, t ∈ data.traitSet.toList ↔ Mentions history t
  keys : ∀ t k, k ∈ (data.propertyKeys t).toList ↔ (data.get? t k).isSome = true
  isEmpty : data.isEmpty = true ↔ data.traitSet.toList = []

theorem Described.follows (h : Described history data) : Follows history data where
  toDescribed := h
  traitSet t := mem_traitSet.trans (h.has t)
  keys _ _ := mem_propertyKeys
  isEmpty := isEmpty_iff

/-- A bag of a program, with its history. -/
def IsBag (calls : List Call) (history : List Change) (data : TraitsData) : Prop :=
  ∃ bag : Nat, (histories calls)[bag]? = some history ∧ (run calls)[bag]? = some data

theorem IsBag.described {calls : List Call} (h : IsBag calls history data) :
    Described history data := by
  obtain ⟨bag, hhistory, hdata⟩ := h
  have hbag := rel_getElem? (allDescribed_run calls) bag
  rw [hhistory, hdata] at hbag
  cases hbag with
  | some hbag => exact hbag

/-- Histories that mention the same traits, and give each property values last that agree. -/
structure Agree (agree : Value → Value → Prop) (history past : List Change) : Prop where
  mentions : ∀ t, Mentions history t ↔ Mentions past t
  values : ∀ t k, Option.Rel agree (lastValue history t k) (lastValue past t k)

theorem Described.agree_iff (ha : Described history a) (hb : Described past b)
    {agree : Value → Value → Prop} :
    Agree agree history past ↔
      (∀ t, a.has t = b.has t) ∧ ∀ t k, Option.Rel agree (a.get? t k) (b.get? t k) := by
  simp only [ha.get, hb.get, Bool.eq_iff_iff, ha.has, hb.has]
  exact ⟨fun h => ⟨h.mentions, h.values⟩, fun h => ⟨h.1, h.2⟩⟩

/-- The order of the changes does not show. -/
theorem Described.eq (ha : Described history a) (hb : Described past b)
    (h : Agree (· = ·) history past) : a = b := by
  obtain ⟨hhas, hget⟩ := (ha.agree_iff hb).mp h
  exact ext hhas fun t k => eq_of_rel_eq (hget t k)

-- ---------------------------------------------------------------- every program

/-- A call that adds traits to a bag. -/
inductive Call.AddsTo (bag : Nat) : Call → Prop
  | addTrait (traitId : String) : AddsTo bag (.addTrait bag traitId)
  | addTraits (traitSet : TraitSet) : AddsTo bag (.addTraits bag traitSet)

theorem run_concat (calls : List Call) (call : Call) :
    run (calls ++ [call]) = after (run calls) call := List.foldl_concat ..

/-- After every program each bag has the traits that were named in its history and for each property
the value that was set last, and adding traits changes no value. Bags compare equal just if their
histories end with values that do. If these are the same values, the bags print the same, and
compare equal unless they hold a NaN. A bag compares equal to its copy just if it holds none. -/
theorem bags_follow_histories :
    (∀ calls, List.Forall₂ Follows (histories calls) (run calls)) ∧
    (∀ calls (bag : Nat) data call, (run calls)[bag]? = some data → Call.AddsTo bag call →
      ∃ next, (run (calls ++ [call]))[bag]? = some next ∧
        ∀ t k, next.get? t k = data.get? t k) ∧
    (∀ calls others history past a b, IsBag calls history a → IsBag others past b →
      (a.same b = true ↔ Agree (Value.same · · = true) history past) ∧
      (Agree (· = ·) history past → a.toJson = b.toJson ∧
        (¬ a.HoldsNaN → ¬ b.HoldsNaN → a.same b = true))) ∧
    ∀ calls (bag : Nat) data, (run calls)[bag]? = some data →
      ∃ copy, run (calls ++ [.copy (some bag)]) = run calls ++ [copy] ∧
        (data.same copy = true ↔ ¬ data.HoldsNaN) := by
  refine ⟨fun calls => ?_, ?_, ?_, ?_⟩
  · exact (allDescribed_run calls).imp fun _ _ h => h.follows
  · intro calls bag data call hdata hadds
    cases hadds with
    | addTrait traitId =>
      refine ⟨data.addTrait traitId, ?_, get?_addTrait data traitId⟩
      simp [run_concat, after, hdata]
    | addTraits traitSet =>
      refine ⟨data.addTraits traitSet, ?_, get?_addAll data traitSet.toList⟩
      simp [run_concat, after, hdata]
  · intro calls others history past a b ha hb
    refine ⟨same_iff.trans (ha.described.agree_iff hb.described).symm, fun hagree => ?_⟩
    obtain rfl := ha.described.eq hb.described hagree
    exact ⟨rfl, fun hnan _ => (same_self_iff a).mpr hnan⟩
  · intro calls bag data hdata
    refine ⟨data, ?_, same_self_iff data⟩
    simp [run_concat, after, hdata, toOption_copyOf]

/-- Zeros of either sign compare equal and are not the same value. -/
example :
    let zero := empty.set "t" "k" (.float ⟨0⟩)
    let negative := empty.set "t" "k" (.float ⟨0x8000000000000000⟩)
    zero.same negative = true ∧ ¬ zero = negative := by decide +zetaReduce

end EntityBroker.TraitsData
