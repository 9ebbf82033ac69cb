import EntityBroker.TraitsData

/-!
# When data is the same

`TraitsData.same` goes through two dictionaries of dictionaries at once. What it decides can be said
by look-ups (`same_iff`): the same traits, and for every property no value in both or values that
compare equal. As a NaN is not the same as itself, data is the same as itself only if it holds none
(`same_self_iff`).
-/

namespace EntityBroker

namespace TraitsData

-- ---------------------------------------------------------------- what is there or not

section
variable {α β γ δ : Type} {R : α → β → Prop} {v : Option α} {w : Option β}

theorem isSome_eq_of_rel (h : Option.Rel R v w) : v.isSome = w.isSome := by
  cases h <;> rfl

theorem rel_bind {S : γ → δ → Prop} {f : α → Option γ} {g : β → Option δ}
    (h : Option.Rel R v w) (hstep : ∀ x y, R x y → Option.Rel S (f x) (g y)) :
    Option.Rel S (v.bind f) (w.bind g) := by
  cases h with
  | none => exact .none
  | some hxy => exact hstep _ _ hxy

theorem eq_of_rel_eq {v w : Option α} (h : Option.Rel (· = ·) v w) : v = w := by
  cases h with
  | none => rfl
  | some heq => exact congrArg some heq

end

-- ---------------------------------------------------------------- entries and look-ups

section
variable {β γ : Type} {same : β → β → Bool}

/-- Which keys there are is a dictionary again. -/
theorem names_eq_iff {a : Dict β} {b : Dict γ} :
    a.map (fun _ => ()) = b.map (fun _ => ()) ↔ ∀ key, a.contains key = b.contains key := by
  constructor
  · intro h key
    simpa [Dict.contains, Dict.get?_map] using congrArg (·.contains key) h
  · intro h
    refine Dict.ext_contains (fun key => ?_) fun _ _ _ _ _ => rfl
    simpa [Dict.contains, Dict.get?_map] using h key

theorem keys_eq_iff {a : Dict β} {b : Dict γ} :
    a.keys = b.keys ↔ ∀ key, a.contains key = b.contains key := by
  constructor
  · intro h key
    rw [Bool.eq_iff_iff, Dict.contains, Dict.contains, ← Dict.mem_keys, ← Dict.mem_keys, h]
  · intro h
    have hnames := congrArg Dict.keys (names_eq_iff.mpr h)
    rwa [Dict.keys_map, Dict.keys_map] at hnames

theorem lookup_of_sameEntries {xs ys : List (String × β)} (h : sameEntries same xs ys = true)
    (key : String) : Option.Rel (same · · = true) (xs.lookup key) (ys.lookup key) := by
  fun_induction sameEntries same xs ys with
  | case1 => exact .none
  | case2 k v rest j w others ih =>
    simp only [Bool.and_eq_true, beq_iff_eq] at h
    obtain ⟨⟨rfl, hfirst⟩, hrest⟩ := h
    simp only [List.lookup_cons]
    cases key == k with
    | true => exact .some hfirst
    | false => exact ih hrest
  | case3 => cases h

/-- Over the same keys in increasing order, entries are the same if all look-ups are. -/
theorem sameEntries_of_lookup {xs ys : List (String × β)}
    (hxs : xs.Pairwise fun a b => a.1 < b.1) (hys : ys.Pairwise fun a b => a.1 < b.1)
    (hkeys : xs.map Prod.fst = ys.map Prod.fst)
    (h : ∀ key, Option.Rel (same · · = true) (xs.lookup key) (ys.lookup key)) :
    sameEntries same xs ys = true := by
  induction xs generalizing ys with
  | nil =>
    cases ys with
    | nil => rfl
    | cons _ _ => cases hkeys
  | cons x xs ih =>
    cases ys with
    | nil => cases hkeys
    | cons y ys =>
      obtain ⟨k, v⟩ := x
      obtain ⟨j, w⟩ := y
      simp only [List.map_cons, List.cons.injEq] at hkeys
      obtain ⟨rfl, hkeys⟩ := hkeys
      obtain ⟨hx, hxs⟩ := List.pairwise_cons.mp hxs
      obtain ⟨hy, hys⟩ := List.pairwise_cons.mp hys
      have hfirst : same v w = true := by
        have hk := h k
        simp only [List.lookup_cons_self] at hk
        cases hk with
        | some hsame => exact hsame
      have hrest : sameEntries same xs ys = true := by
        refine ih hxs hys hkeys fun key => ?_
        by_cases hkey : key = k
        · subst hkey
          rw [Dict.lookup_eq_none_of_lt hx, Dict.lookup_eq_none_of_lt hy]
          exact .none
        · simpa [List.lookup_cons, beq_eq_false_iff_ne.mpr hkey] using h key
      simp [sameEntries, hfirst, hrest]

theorem sameEntries_iff {a b : Dict β} :
    sameEntries same a.entries b.entries = true ↔
      ∀ key, Option.Rel (same · · = true) (a.get? key) (b.get? key) := by
  constructor
  · exact fun h => lookup_of_sameEntries h
  · intro h
    have hkeys : a.keys = b.keys := keys_eq_iff.mpr fun key => isSome_eq_of_rel (h key)
    exact sameEntries_of_lookup a.ascending b.ascending hkeys h

end

end TraitsData

-- ---------------------------------------------------------------- values and data

theorem Value.same_self_iff (v : Value) :
    v.same v = true ↔ ∀ x, v = .float x → x.isNaN = false := by
  cases v with
  | float x => simp [Value.same, Double.same_self_iff]
  | _ => simp [Value.same]

namespace TraitsData

/-- Entries and then their properties, or all look-ups at once. -/
theorem rel_traits_iff {R : Value → Value → Prop} {a b : TraitsData} :
    (∀ t, Option.Rel (fun p q => ∀ k, Option.Rel R (p.get? k) (q.get? k)) (a.traits.get? t)
      (b.traits.get? t)) ↔
      (∀ t, a.has t = b.has t) ∧ ∀ t k, Option.Rel R (a.get? t k) (b.get? t k) := by
  constructor
  · intro h
    exact ⟨fun t => isSome_eq_of_rel (h t), fun t k => rel_bind (h t) fun _ _ hrel => hrel k⟩
  · rintro ⟨hhas, hget⟩ t
    have ht : (a.traits.get? t).isSome = (b.traits.get? t).isSome := hhas t
    cases hp : a.traits.get? t with
    | none =>
      cases hq : b.traits.get? t with
      | none => exact .none
      | some q => simp [hp, hq] at ht
    | some p =>
      cases hq : b.traits.get? t with
      | none => simp [hp, hq] at ht
      | some q => exact .some fun k => by simpa [get?, hp, hq] using hget t k

theorem same_iff {a b : TraitsData} :
    a.same b = true ↔ (∀ t, a.has t = b.has t) ∧
      ∀ t k, Option.Rel (Value.same · · = true) (a.get? t k) (b.get? t k) := by
  unfold same
  rw [sameEntries_iff, ← rel_traits_iff]
  simp only [sameEntries_iff]

def HoldsNaN (data : TraitsData) : Prop :=
  ∃ t k x, data.get? t k = some (.float x) ∧ x.isNaN = true

theorem same_self_iff (data : TraitsData) : data.same data = true ↔ ¬ data.HoldsNaN := by
  rw [same_iff]
  constructor
  · rintro ⟨-, hget⟩ ⟨t, k, x, hx, hnan⟩
    have hself := hget t k
    rw [hx] at hself
    cases hself with
    | some hself =>
      rw [Value.same_self_iff] at hself
      simp [hself x rfl] at hnan
  · intro hnan
    refine ⟨fun _ => rfl, fun t k => ?_⟩
    cases hv : data.get? t k with
    | none => exact .none
    | some v =>
      refine .some ((Value.same_self_iff v).mpr ?_)
      rintro x rfl
      exact Bool.eq_false_iff.mpr fun hx => hnan ⟨t, k, x, hv, hx⟩

end TraitsData

end EntityBroker
