import EntityBroker.Proofs.TraitsData.Same

/-!
# What a document tells of its source

Values, dictionaries of them and bags of traits become trees of JSON. Trees are compared here with
integers and floats kept apart and floats compared as numbers. Sources whose trees compare equal
have the same names and alike values; the one thing that a tree does not tell is which infinity or
NaN stood where it has a null (`documents_faithful`).
-/

namespace EntityBroker

-- ---------------------------------------------------------------- trees

namespace Json

mutual
def same : Json → Json → Bool
  | .null, .null => true
  | .bool a, .bool b => a == b
  | .int m, .int n => m == n
  | .float x, .float y => x.same y
  | .str s, .str t => s == t
  | .arr items, .arr others => sameItems items others
  | .obj entries, .obj others => sameMembers entries others
  | _, _ => false

def sameItems : List Json → List Json → Bool
  | [], [] => true
  | item :: rest, other :: others => same item other && sameItems rest others
  | _, _ => false

def sameMembers : List (String × Json) → List (String × Json) → Bool
  | [], [] => true
  | (k, v) :: rest, (j, w) :: others => k == j && same v w && sameMembers rest others
  | _, _ => false
end

theorem sameMembers_eq (entries others : List (String × Json)) :
    sameMembers entries others = TraitsData.sameEntries same entries others := by
  induction entries generalizing others with
  | nil => cases others <;> simp [sameMembers, TraitsData.sameEntries]
  | cons entry rest ih => cases others <;> simp [sameMembers, TraitsData.sameEntries, ih]

/-- Objects of dictionaries compare by look-ups, whatever their values become. -/
theorem same_ofDict_iff {β : Type} {f : β → Json} {R : β → β → Prop}
    (hf : ∀ v w, (f v).same (f w) = true ↔ R v w) {a b : Dict β} :
    (ofDict (a.map f)).same (ofDict (b.map f)) = true ↔
      ∀ key, Option.Rel R (a.get? key) (b.get? key) := by
  rw [ofDict, ofDict, same, sameMembers_eq, TraitsData.sameEntries_iff]
  refine forall_congr' fun key => ?_
  rw [Dict.get?_map, Dict.get?_map]
  cases a.get? key <;> cases b.get? key <;> simp [hf]

end Json

-- ---------------------------------------------------------------- values

namespace Double

theorem isFinite_of_isZero {x : Double} (h : x.isZero = true) : x.isFinite = true := by
  rw [isZero, Bool.and_eq_true, beq_iff_eq] at h
  simp [isFinite, h.1]

theorem isNaN_of_isFinite {x : Double} (h : x.isFinite = true) : x.isNaN = false := by
  simp_all [isFinite, isNaN]

theorem isFinite_of_same {x y : Double} (h : x.same y = true) : x.isFinite = y.isFinite := by
  simp only [same, Bool.and_eq_true, Bool.or_eq_true, beq_iff_eq] at h
  obtain ⟨-, rfl | ⟨hx, hy⟩⟩ := h
  · rfl
  · rw [isFinite_of_isZero hx, isFinite_of_isZero hy]

end Double

namespace Value

variable {v w : Value}

def NonFinite (v : Value) : Prop := ∃ x, v = .float x ∧ x.isFinite = false

/-- Values that no document tells apart. -/
def Alike (v w : Value) : Prop := v.same w = true ∨ v.NonFinite ∧ w.NonFinite

theorem nonFinite_float {x : Double} : NonFinite (.float x) ↔ x.isFinite = false := by
  simp [NonFinite]

theorem toJson_eq_null_iff : v.toJson = .null ↔ v.NonFinite := by
  cases v with
  | float x =>
    rw [nonFinite_float, toJson]
    split <;> simp_all
  | _ => simp [toJson, NonFinite]

theorem same_toJson_float (x y : Double) :
    (toJson (.float x)).same (toJson (.float y)) = true ↔ Alike (.float x) (.float y) := by
  rw [Alike, nonFinite_float, nonFinite_float, toJson, toJson, same]
  have hsame := @Double.isFinite_of_same x y
  cases hx : x.isFinite <;> cases hy : y.isFinite <;> simp_all [Json.same]

theorem same_toJson_iff : v.toJson.same w.toJson = true ↔ v.Alike w := by
  cases v with
  | float x =>
    cases w with
    | float y => exact same_toJson_float x y
    | _ =>
      simp only [toJson]
      split <;> simp [Json.same, Alike, NonFinite, same]
  | _ =>
    cases w with
    | float y =>
      simp only [toJson]
      split <;> simp [Json.same, Alike, NonFinite, same]
    | _ => simp [toJson, Json.same, Alike, NonFinite, same, Int64.toInt_inj]

theorem Alike.kind_eq (h : v.Alike w) : v.kind = w.kind := by
  rcases h with h | ⟨⟨x, rfl, -⟩, y, rfl, -⟩
  · cases v <;> cases w <;> first | rfl | cases h
  · rfl

theorem alike_self (v : Value) : v.Alike v := by
  by_cases h : v.NonFinite
  · exact .inr ⟨h, h⟩
  · refine .inl ((same_self_iff v).mpr ?_)
    rintro x rfl
    exact Double.isNaN_of_isFinite (by simpa [nonFinite_float] using h)

/-- Only a float becomes null, and only a float becomes a number with a point. -/
theorem toJson_ne_of_kind_ne (h : v.kind ≠ w.kind) :
    v.toJson.same w.toJson = false ∧ v.toJson ≠ w.toJson := by
  have hsame : v.toJson.same w.toJson = false :=
    Bool.eq_false_iff.mpr fun hsame => h (same_toJson_iff.mp hsame).kind_eq
  refine ⟨hsame, fun heq => ?_⟩
  rw [← heq, same_toJson_iff.mpr (alike_self v)] at hsame
  cases hsame

end Value

-- ---------------------------------------------------------------- names and values

section
variable {α β : Type} {R : α → β → Prop}

theorem rel_iff {v : Option α} {w : Option β} :
    Option.Rel R v w ↔ v.isSome = w.isSome ∧ ∀ x y, v = some x → w = some y → R x y := by
  cases v <;> cases w <;> simp

end

/-- A dictionary of values by its keys and what stands there. -/
theorem Info.same_toJson_iff {a b : Info} :
    a.toJson.same b.toJson = true ↔ a.keys = b.keys ∧
      ∀ k v w, a.get? k = some v → b.get? k = some w → v.Alike w := by
  rw [toJson, toJson, Json.same_ofDict_iff fun _ _ => Value.same_toJson_iff, TraitsData.keys_eq_iff]
  simp only [rel_iff, forall_and, Dict.contains]

namespace TraitsData

variable {a b data : TraitsData} {t : String}

theorem traitSet_eq_iff : a.traitSet = b.traitSet ↔ ∀ t, a.has t = b.has t := names_eq_iff

theorem propertyKeys_eq_iff :
    a.propertyKeys t = b.propertyKeys t ↔ ∀ k, (a.get? t k).isSome = (b.get? t k).isSome := by
  rw [propertyKeys, propertyKeys, names_eq_iff]
  simp only [Dict.contains, get?_keepProperties, get?]

theorem same_toJson_iff :
    a.toJson.same b.toJson = true ↔ a.traitSet = b.traitSet ∧
      (∀ t, a.propertyKeys t = b.propertyKeys t) ∧
      ∀ t k v w, a.get? t k = some v → b.get? t k = some w → v.Alike w := by
  have hproperties : ∀ p q : Dict Value, (Json.ofDict (p.map Value.toJson)).same
      (Json.ofDict (q.map Value.toJson)) = true ↔
        ∀ k, Option.Rel Value.Alike (p.get? k) (q.get? k) :=
    fun _ _ => Json.same_ofDict_iff fun _ _ => Value.same_toJson_iff
  rw [toJson, toJson, Json.same_ofDict_iff hproperties, rel_traits_iff, traitSet_eq_iff]
  simp only [rel_iff, forall_and, propertyKeys_eq_iff]

/-- A trait without properties has an object of its own. -/
theorem lookup_toJson (data : TraitsData) (t : String) :
    ∃ entries, data.toJson = .obj entries ∧
      (entries.lookup t = some (.obj []) ↔
        data.has t = true ∧ data.propertyKeys t = Dict.empty) := by
  refine ⟨_, rfl, ?_⟩
  have hlookup := Dict.get?_map (fun p => Json.ofDict (p.map Value.toJson)) data.traits t
  rw [Dict.get?] at hlookup
  rw [hlookup, has, Dict.contains, propertyKeys]
  cases data.traits.get? t with
  | none => simp
  | some p => simp [Json.ofDict, Dict.map, keepProperties, Dict.empty]

end TraitsData

/-- Documents are the same exactly if their sources are, up to infinities and NaN, which are the
values that become null. A value of one kind never has the tree of another kind, and a trait without
properties is an empty object. -/
theorem documents_faithful :
    (∀ v w : Value, v.toJson.same w.toJson = true ↔ v.Alike w) ∧
    (∀ v : Value, v.toJson = .null ↔ v.NonFinite) ∧
    (∀ v w : Value, v.kind ≠ w.kind → v.toJson.same w.toJson = false ∧ v.toJson ≠ w.toJson) ∧
    (∀ a b : Info, a.toJson.same b.toJson = true ↔ a.keys = b.keys ∧
      ∀ k v w, a.get? k = some v → b.get? k = some w → v.Alike w) ∧
    (∀ a b : TraitsData, a.toJson.same b.toJson = true ↔ a.traitSet = b.traitSet ∧
      (∀ t, a.propertyKeys t = b.propertyKeys t) ∧
      ∀ t k v w, a.get? t k = some v → b.get? t k = some w → v.Alike w) ∧
    (∀ (data : TraitsData) t, ∃ entries, data.toJson = .obj entries ∧
      (entries.lookup t = some (.obj []) ↔
        data.has t = true ∧ data.propertyKeys t = Dict.empty)) :=
  ⟨fun _ _ => Value.same_toJson_iff,
    fun _ => Value.toJson_eq_null_iff,
    fun _ _ => Value.toJson_ne_of_kind_ne,
    fun _ _ => Info.same_toJson_iff,
    fun _ _ => TraitsData.same_toJson_iff,
    TraitsData.lookup_toJson⟩

end EntityBroker
