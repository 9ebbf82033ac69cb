/-!
# String-keyed dictionaries

A dictionary holds each key once, in increasing order of the keys' characters, so two dictionaries
that answer every look-up alike are equal (`Dict.ext_get?`) and every traversal is in key order.
`Dict.update` is the one writing operation; insertion and merging are written with it.
-/

namespace EntityBroker

universe u v

/-- Replaces what `key` holds by `f` of it, keeping the order of the keys. -/
def updateEntries {β : Type u} (key : String) (f : Option β → β) :
    List (String × β) → List (String × β)
  | [] => [(key, f none)]
  | (k, v) :: rest =>
    if key < k then (key, f none) :: (k, v) :: rest
    else if key = k then (key, f (some v)) :: rest
    else (k, v) :: updateEntries key f rest

theorem mem_updateEntries {β : Type u} {key : String} {f : Option β → β} {e : String × β}
    {entries : List (String × β)} (h : e ∈ updateEntries key f entries) :
    e.1 = key ∨ e ∈ entries := by
  induction entries with
  | nil => simp [updateEntries] at h; simp [h]
  | cons head rest ih =>
    obtain ⟨k, v⟩ := head
    rw [updateEntries] at h
    split at h
    · rcases List.mem_cons.mp h with rfl | h
      · exact .inl rfl
      · exact .inr h
    · split at h
      · rcases List.mem_cons.mp h with rfl | h
        · exact .inl rfl
        · exact .inr (List.mem_cons_of_mem _ h)
      · rcases List.mem_cons.mp h with rfl | h
        · exact .inr (List.mem_cons_self ..)
        · exact (ih h).imp id (List.mem_cons_of_mem _)

theorem lt_of_not_lt_of_ne {a b : String} (h : ¬ a < b) (hn : a ≠ b) : b < a := by
  have hle : b ≤ a := String.not_lt.mp h
  by_cases hb : b < a
  · exact hb
  · exact absurd (String.le_antisymm (String.not_lt.mp hb) hle) hn

theorem updateEntries_ascending {β : Type u} {key : String} {f : Option β → β}
    {entries : List (String × β)} (h : entries.Pairwise (fun a b => a.1 < b.1)) :
    (updateEntries key f entries).Pairwise (fun a b => a.1 < b.1) := by
  induction entries with
  | nil => simp [updateEntries]
  | cons head rest ih =>
    obtain ⟨k, v⟩ := head
    have hk := (List.pairwise_cons.mp h).1
    have hr := (List.pairwise_cons.mp h).2
    rw [updateEntries]
    split
    · rename_i hlt
      refine List.pairwise_cons.mpr ⟨fun e he => ?_, h⟩
      rcases List.mem_cons.mp he with rfl | he
      · exact hlt
      · exact String.lt_trans hlt (hk e he)
    · split
      · rename_i heq
        subst heq
        exact List.pairwise_cons.mpr ⟨hk, hr⟩
      · rename_i hlt hne
        refine List.pairwise_cons.mpr ⟨fun e he => ?_, ih hr⟩
        rcases mem_updateEntries he with rfl | he
        · exact lt_of_not_lt_of_ne hlt hne
        · exact hk e he

/-- Where one step replaces what a look-up finds, or else leaves it, many steps leave there what the
last of them to replace it gave. -/
theorem lookUp_foldl {σ α β : Type} {step : σ → α → σ} (lookUp : σ → Option β)
    (given : α → Option β) (h : ∀ s a, lookUp (step s a) = (given a).or (lookUp s))
    (items : List α) (s : σ) :
    lookUp (items.foldl step s) = (items.filterMap given).getLast?.or (lookUp s) := by
  induction items generalizing s with
  | nil => rfl
  | cons item rest ih =>
    rw [List.foldl_cons, ih, h, ← Option.or_assoc, List.filterMap_cons]
    cases given item with
    | none => simp
    | some value =>
      cases hrest : (rest.filterMap given).getLast? <;> simp [List.getLast?_cons, hrest]

/-- Keys with values, each key once, in increasing order. -/
structure Dict (β : Type u) where
  entries : List (String × β)
  ascending : entries.Pairwise (fun a b => a.1 < b.1)

namespace Dict

variable {β : Type u} {γ : Type v}

def empty : Dict β := ⟨[], List.Pairwise.nil⟩

instance : EmptyCollection (Dict β) := ⟨empty⟩

instance : Inhabited (Dict β) := ⟨empty⟩

instance [DecidableEq β] : DecidableEq (Dict β) := fun a b =>
  if h : a.entries = b.entries then isTrue (by cases a; cases b; cases h; rfl)
  else isFalse (fun he => h (he ▸ rfl))

def get? (d : Dict β) (key : String) : Option β := d.entries.lookup key

def contains (d : Dict β) (key : String) : Bool := (d.get? key).isSome

def keys (d : Dict β) : List String := d.entries.map Prod.fst

def values (d : Dict β) : List β := d.entries.map Prod.snd

def size (d : Dict β) : Nat := d.entries.length

def isEmpty (d : Dict β) : Bool := d.entries.isEmpty

/-- Makes `key` hold `f` of what it held before, if anything. -/
def update (d : Dict β) (key : String) (f : Option β → β) : Dict β :=
  ⟨updateEntries key f d.entries, updateEntries_ascending d.ascending⟩

def insert (d : Dict β) (key : String) (value : β) : Dict β := d.update key (fun _ => value)

/-- Of two values for one key the later one stays. -/
def ofList (pairs : List (String × β)) : Dict β :=
  pairs.foldl (fun d pair => d.insert pair.1 pair.2) empty

/-- The entries of both; where both hold a key, `e` decides. -/
def merge (d e : Dict β) : Dict β :=
  e.entries.foldl (fun d pair => d.insert pair.1 pair.2) d

def erase (d : Dict β) (key : String) : Dict β :=
  ⟨d.entries.filter (fun e => e.1 ≠ key), d.ascending.filter _⟩

def map (f : β → γ) (d : Dict β) : Dict γ :=
  ⟨d.entries.map (fun e => (e.1, f e.2)), by
    exact List.Pairwise.map _ (fun _ _ h => h) d.ascending⟩

-- ---------------------------------------------------------------- look-up

theorem lookup_eq_none_of_lt {key : String} {entries : List (String × β)}
    (h : ∀ e ∈ entries, key < e.1) : entries.lookup key = none := by
  induction entries with
  | nil => rfl
  | cons head rest ih =>
    obtain ⟨k, v⟩ := head
    have hk : key < k := h (k, v) (List.mem_cons_self ..)
    have hne : (key == k) = false := by
      simp only [beq_eq_false_iff_ne]
      exact fun he => String.lt_irrefl _ (he ▸ hk)
    simp only [List.lookup_cons, hne]
    exact ih (fun e he => h e (List.mem_cons_of_mem _ he))

theorem lookup_filter_ne {α : Type v} [DecidableEq α] (entries : List (α × β)) (key other : α) :
    (entries.filter fun e => e.1 ≠ key).lookup other =
      if other = key then none else entries.lookup other := by
  induction entries with
  | nil => simp
  | cons head rest ih =>
    obtain ⟨k, v⟩ := head
    by_cases hk : k = key
    · subst hk
      by_cases ho : other = k
      · simpa [ho] using ih
      · simpa [List.lookup_cons, ho, beq_eq_false_iff_ne.mpr ho] using ih
    · by_cases ho : other = k
      · subst ho
        simp [hk]
      · simpa [List.lookup_cons, hk, beq_eq_false_iff_ne.mpr ho] using ih

theorem lookup_updateEntries {key : String} {f : Option β → β} {entries : List (String × β)}
    (h : entries.Pairwise (fun a b => a.1 < b.1)) (other : String) :
    (updateEntries key f entries).lookup other =
      if other = key then some (f (entries.lookup key)) else entries.lookup other := by
  induction entries with
  | nil =>
    by_cases ho : other = key
    · simp [updateEntries, ho]
    · simp [updateEntries, List.lookup_cons, ho, beq_eq_false_iff_ne.mpr ho]
  | cons head rest ih =>
    obtain ⟨k, v⟩ := head
    have hk := (List.pairwise_cons.mp h).1
    have hr := (List.pairwise_cons.mp h).2
    rw [updateEntries]
    split
    · rename_i hlt
      have hnone : List.lookup key ((k, v) :: rest) = none := by
        refine lookup_eq_none_of_lt (fun e he => ?_)
        rcases List.mem_cons.mp he with rfl | he
        · exact hlt
        · exact String.lt_trans hlt (hk e he)
      by_cases ho : other = key
      · subst ho; rw [hnone]; simp
      · rw [List.lookup_cons, beq_eq_false_iff_ne.mpr ho]; simp [ho]
    · split
      · rename_i heq
        subst heq
        by_cases ho : other = key
        · simp [ho]
        · simp [List.lookup_cons, ho, beq_eq_false_iff_ne.mpr ho]
      · rename_i hlt hne
        have hbk : (key == k) = false := beq_eq_false_iff_ne.mpr hne
        by_cases hok : other = k
        · subst hok
          have ho : other ≠ key := fun he => hne he.symm
          simp [ho]
        · have hbo : (other == k) = false := beq_eq_false_iff_ne.mpr hok
          simp only [List.lookup_cons, hbo, hbk]
          exact ih hr

@[simp] theorem get?_empty (key : String) : (empty : Dict β).get? key = none := rfl

theorem get?_update (d : Dict β) (key : String) (f : Option β → β) (other : String) :
    (d.update key f).get? other = if other = key then some (f (d.get? key)) else d.get? other :=
  lookup_updateEntries d.ascending other

theorem get?_insert (d : Dict β) (key : String) (value : β) (other : String) :
    (d.insert key value).get? other = if other = key then some value else d.get? other :=
  get?_update d key _ other

theorem contains_update (d : Dict β) (key : String) (f : Option β → β) (other : String) :
    (d.update key f).contains other = (decide (other = key) || d.contains other) := by
  by_cases h : other = key <;> simp [contains, get?_update, h]

theorem contains_insert (d : Dict β) (key : String) (value : β) (other : String) :
    (d.insert key value).contains other = (decide (other = key) || d.contains other) :=
  contains_update d key _ other

theorem get?_erase (d : Dict β) (key other : String) :
    (d.erase key).get? other = if other = key then none else d.get? other :=
  lookup_filter_ne d.entries key other

theorem contains_erase (d : Dict β) (key other : String) :
    (d.erase key).contains other = (decide (other ≠ key) && d.contains other) := by
  by_cases h : other = key <;> simp [contains, get?_erase, h]

theorem get?_insertAll (d : Dict β) {entries : List (String × β)}
    (h : entries.Pairwise (fun a b => a.1 < b.1)) (key : String) :
    (entries.foldl (fun d pair => d.insert pair.1 pair.2) d).get? key =
      (entries.lookup key).or (d.get? key) := by
  induction entries generalizing d with
  | nil => rfl
  | cons head rest ih =>
    obtain ⟨k, v⟩ := head
    obtain ⟨hk, hr⟩ := List.pairwise_cons.mp h
    rw [List.foldl_cons, ih _ hr, get?_insert]
    by_cases hkey : key = k
    · subst hkey
      simp [lookup_eq_none_of_lt hk]
    · simp [List.lookup_cons, hkey, beq_eq_false_iff_ne.mpr hkey]

theorem get?_ofList (pairs : List (String × β)) (key : String) :
    (ofList pairs).get? key = pairs.reverse.lookup key := by
  have hinsert : ∀ d : Dict β, (pairs.foldl (fun d pair => d.insert pair.1 pair.2) d).get? key =
      (pairs.reverse.lookup key).or (d.get? key) := by
    induction pairs with
    | nil => exact fun _ => rfl
    | cons pair rest ih =>
      obtain ⟨k, v⟩ := pair
      intro d
      rw [List.foldl_cons, ih, get?_insert, List.reverse_cons, List.lookup_append, Option.or_assoc]
      by_cases hkey : key = k
      · simp [hkey]
      · simp [List.lookup_cons, hkey, beq_eq_false_iff_ne.mpr hkey]
  rw [ofList, hinsert, get?_empty, Option.or_none]

/-- Of all entries only the one of the key that is looked up can contribute. -/
theorem flatMap_entries (d : Dict β) (key : String) (f : β → List γ) :
    (d.entries.flatMap fun e => if e.1 = key then f e.2 else []) = (d.get? key).elim [] f := by
  obtain ⟨entries, h⟩ := d
  simp only [get?]
  induction entries with
  | nil => rfl
  | cons head rest ih =>
    obtain ⟨k, v⟩ := head
    obtain ⟨hk, hr⟩ := List.pairwise_cons.mp h
    rw [List.flatMap_cons, ih hr]
    by_cases hkey : key = k
    · subst hkey
      simp [lookup_eq_none_of_lt hk]
    · simp [List.lookup_cons, Ne.symm hkey, beq_eq_false_iff_ne.mpr hkey]

theorem get?_merge (d e : Dict β) (key : String) :
    (d.merge e).get? key = (e.get? key).or (d.get? key) :=
  get?_insertAll d e.ascending key

theorem lookup_map (f : β → γ) (entries : List (String × β)) (key : String) :
    (entries.map (fun e => (e.1, f e.2))).lookup key = (entries.lookup key).map f := by
  induction entries with
  | nil => rfl
  | cons head rest ih =>
    obtain ⟨k, v⟩ := head
    simp only [List.map_cons, List.lookup_cons]
    cases key == k <;> simp [ih]

theorem get?_map (f : β → γ) (d : Dict β) (key : String) :
    (d.map f).get? key = (d.get? key).map f :=
  lookup_map f d.entries key

/-- Two entry lists in key order with the same look-ups are the same list. -/
theorem entries_eq_of_lookup {a b : List (String × β)}
    (ha : a.Pairwise (fun x y => x.1 < y.1)) (hb : b.Pairwise (fun x y => x.1 < y.1))
    (h : ∀ key, a.lookup key = b.lookup key) : a = b := by
  induction a generalizing b with
  | nil =>
    cases b with
    | nil => rfl
    | cons e rest => simpa using (h e.1).trans List.lookup_cons_self
  | cons x xs ih =>
    cases b with
    | nil => simpa [List.lookup_cons] using h x.1
    | cons y ys =>
      obtain ⟨k, v⟩ := x
      obtain ⟨j, w⟩ := y
      have hx := List.pairwise_cons.mp ha
      have hy := List.pairwise_cons.mp hb
      have below : ∀ {c : String} {e : String × β} {es : List (String × β)},
          c < e.1 → (∀ z ∈ es, e.1 < z.1) → List.lookup c (e :: es) = none := by
        intro c e es hc hes
        refine lookup_eq_none_of_lt (fun z hz => ?_)
        rcases List.mem_cons.mp hz with rfl | hz
        · exact hc
        · exact String.lt_trans hc (hes z hz)
      have hkj : k = j := by
        by_cases hkj : k = j
        · exact hkj
        · by_cases hlt : k < j
          · have hk := h k
            rw [below (e := (j, w)) hlt hy.1] at hk
            simp at hk
          · have hj := h j
            rw [below (e := (k, v)) (lt_of_not_lt_of_ne hlt hkj) hx.1] at hj
            simp at hj
      subst hkj
      have hvw : v = w := by simpa [List.lookup_cons] using h k
      subst hvw
      have hrest : xs = ys := by
        refine ih hx.2 hy.2 (fun key => ?_)
        by_cases hkey : key = k
        · subst hkey
          rw [lookup_eq_none_of_lt hx.1, lookup_eq_none_of_lt hy.1]
        · simpa [List.lookup_cons, beq_eq_false_iff_ne.mpr hkey] using h key
      rw [hrest]

/-- A dictionary is what it answers. -/
theorem ext_get? {a b : Dict β} (h : ∀ key, a.get? key = b.get? key) : a = b := by
  have := entries_eq_of_lookup a.ascending b.ascending h
  cases a; cases b; cases this; rfl

/-- Dictionaries with the same keys are equal if what stands at every key is. -/
theorem ext_contains {a b : Dict β} (hkeys : ∀ key, a.contains key = b.contains key)
    (hvalues : ∀ key v w, a.get? key = some v → b.get? key = some w → v = w) : a = b := by
  refine ext_get? fun key => ?_
  have hkey : (a.get? key).isSome = (b.get? key).isSome := hkeys key
  cases ha : a.get? key with
  | none =>
    rw [ha, Option.isSome_none, eq_comm, Option.isSome_eq_false_iff, Option.isNone_iff_eq_none]
      at hkey
    exact hkey.symm
  | some v =>
    rw [ha, Option.isSome_some, eq_comm, Option.isSome_iff_exists] at hkey
    obtain ⟨w, hb⟩ := hkey
    rw [hb, hvalues key v w ha hb]

theorem merge_assoc (d e f : Dict β) : (d.merge e).merge f = d.merge (e.merge f) :=
  ext_get? fun key => by simp only [get?_merge, Option.or_assoc]

/-- Merging over a dictionary what it was merged with changes nothing. -/
theorem merge_again (d e : Dict β) : (d.merge e).merge e = d.merge e :=
  ext_get? fun key => by simp only [get?_merge, ← Option.or_assoc, Option.or_self]

-- ---------------------------------------------------------------- entries

section
variable {d : Dict β} {before after : List (String × β)} {key : String} {value : β}

theorem lt_of_mem_before (h : d.entries = before ++ (key, value) :: after) {e : String × β}
    (he : e ∈ before) : e.1 < key :=
  (List.pairwise_append.mp (h ▸ d.ascending)).2.2 e he _ (List.mem_cons_self ..)

theorem lt_of_mem_after (h : d.entries = before ++ (key, value) :: after) {e : String × β}
    (he : e ∈ after) : key < e.1 :=
  (List.pairwise_cons.mp (List.pairwise_append.mp (h ▸ d.ascending)).2.1).1 e he

end

theorem mem_entries {d : Dict β} {key : String} {value : β} :
    (key, value) ∈ d.entries ↔ d.get? key = some value := by
  rw [get?, List.lookup_eq_some_iff]
  constructor
  · intro hmem
    obtain ⟨before, after, hentries⟩ := List.append_of_mem hmem
    refine ⟨before, after, hentries, fun e he => ?_⟩
    exact bne_iff_ne.mpr (String.ne_of_lt (lt_of_mem_before hentries he)).symm
  · rintro ⟨before, after, hentries, -⟩
    exact hentries ▸ List.mem_append_right _ (List.mem_cons_self ..)

theorem isEmpty_eq_false_iff {d : Dict β} :
    d.isEmpty = false ↔ ∃ key value, d.get? key = some value := by
  rw [isEmpty, List.isEmpty_eq_false_iff_exists_mem]
  exact ⟨fun ⟨e, he⟩ => ⟨e.1, e.2, mem_entries.mp he⟩, fun ⟨_, _, h⟩ => ⟨_, mem_entries.mpr h⟩⟩

/-- A search finds the entry with the smallest key of those that pass. -/
theorem find?_entries_eq_some {d : Dict β} {pass : String × β → Bool} {key : String} {value : β} :
    d.entries.find? pass = some (key, value) ↔
      d.get? key = some value ∧ pass (key, value) = true ∧
        ∀ other w, d.get? other = some w → pass (other, w) = true → other = key ∨ key < other := by
  rw [List.find?_eq_some_iff_append, ← mem_entries]
  constructor
  · rintro ⟨hpass, before, after, hentries, hbefore⟩
    refine ⟨hentries ▸ List.mem_append_right _ (List.mem_cons_self ..), hpass, ?_⟩
    intro other w hother hw
    rw [← mem_entries, hentries, List.mem_append, List.mem_cons] at hother
    rcases hother with hother | hsame | hother
    · exact absurd hw (by simpa using hbefore _ hother)
    · exact .inl (Prod.mk.inj hsame).1
    · exact .inr (lt_of_mem_after hentries hother)
  · rintro ⟨hmem, hpass, hleast⟩
    obtain ⟨before, after, hentries⟩ := List.append_of_mem hmem
    refine ⟨hpass, before, after, hentries, fun e he => ?_⟩
    have hlt : e.1 < key := lt_of_mem_before hentries he
    have hget : d.get? e.1 = some e.2 :=
      mem_entries.mp (hentries ▸ List.mem_append_left _ he)
    rw [Bool.not_eq_true', Bool.eq_false_iff]
    intro hw
    rcases hleast e.1 e.2 hget hw with heq | hgt
    · exact String.ne_of_lt hlt heq
    · exact String.lt_irrefl _ (String.lt_trans hlt hgt)

theorem find?_entries_eq_none {d : Dict β} {pass : String × β → Bool} :
    d.entries.find? pass = none ↔
      ∀ key value, d.get? key = some value → pass (key, value) = false := by
  rw [List.find?_eq_none]
  constructor
  · intro h key value hget
    exact Bool.eq_false_iff.mpr (h (key, value) (mem_entries.mpr hget))
  · intro h e he
    exact Bool.eq_false_iff.mp (h e.1 e.2 (mem_entries.mp he))

-- ---------------------------------------------------------------- keys

theorem length_keys (d : Dict β) : d.keys.length = d.size := List.length_map ..

theorem keys_map (f : β → γ) (d : Dict β) : (d.map f).keys = d.keys := by
  simp [keys, map, Function.comp_def]

theorem keys_nodup (d : Dict β) : d.keys.Nodup :=
  List.pairwise_map.mpr (d.ascending.imp fun hlt => String.ne_of_lt hlt)

theorem mem_keys {d : Dict β} {key : String} : key ∈ d.keys ↔ (d.get? key).isSome = true := by
  rw [keys, get?, List.mem_map, List.lookup_isSome_iff]
  exact exists_congr fun e => and_congr_right fun _ => by rw [beq_iff_eq, eq_comm]

end Dict

-- ---------------------------------------------------------------- sets of names

/-- A set of names, in increasing order without repeats. -/
abbrev NameSet := Dict Unit

namespace NameSet

def ofList (names : List String) : NameSet := Dict.ofList (names.map (fun name => (name, ())))

/-- The names in increasing order. -/
def toList (s : NameSet) : List String := s.keys

theorem isEmpty_iff {s : NameSet} : s.isEmpty = true ↔ s.toList = [] := by
  rw [Dict.isEmpty, List.isEmpty_iff, toList, Dict.keys, List.map_eq_nil_iff]

def union (s t : NameSet) : NameSet := Dict.merge s t

theorem mem_union {s t : NameSet} {name : String} :
    name ∈ (s.union t).toList ↔ name ∈ s.toList ∨ name ∈ t.toList := by
  simp only [toList, Dict.mem_keys, union, Dict.get?_merge, Option.isSome_or, Bool.or_eq_true]
  exact or_comm

end NameSet

end EntityBroker
