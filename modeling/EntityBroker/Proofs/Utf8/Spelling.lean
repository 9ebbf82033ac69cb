import Mathlib.Algebra.Group.Nat.Defs
import EntityBroker.Dict
import EntityBroker.Proofs.Utf8.Cut

/-!
# How characters are spelled

A character is spelled with a first byte, which tells how many bytes follow, and then six bits of
its value a byte (`utf8EncodeChar_eq`). The first byte grows with the value, and so do the bytes
after it, so texts stand in the same order as their bytes (`encode_lt_encode_iff`).
-/

namespace EntityBroker.Utf8

-- ---------------------------------------------------------------- the bytes of a character

/-- The last `k` bytes of a character with the value `v`. -/
def continuations : Nat → Nat → List UInt8
  | 0, _ => []
  | k + 1, v => UInt8.ofNat (v / 64 ^ k % 64 + 128) :: continuations k v

/-- How many bytes follow the first one. -/
def further (v : Nat) : Nat :=
  if v ≤ 0x7F then 0 else if v ≤ 0x7FF then 1 else if v ≤ 0xFFFF then 2 else 3

/-- What marks a first byte that `k` bytes follow. -/
def mark : Nat → Nat
  | 0 => 0
  | 1 => 0xC0
  | 2 => 0xE0
  | _ => 0xF0

/-- The first byte of a character with the value `v`. -/
def lead (v : Nat) : Nat := v / 64 ^ further v + mark (further v)

theorem toNat_lt (c : Char) : c.toNat < 0x110000 := by
  rcases c.valid with h | h
  · exact Nat.lt_trans h (by decide)
  · exact h.2

theorem further_cases (v : Nat) :
    v ≤ 0x7F ∧ further v = 0 ∨ 0x7F < v ∧ v ≤ 0x7FF ∧ further v = 1 ∨
      0x7FF < v ∧ v ≤ 0xFFFF ∧ further v = 2 ∨ 0xFFFF < v ∧ further v = 3 := by
  unfold further
  split
  · omega
  split
  · omega
  split <;> omega

theorem utf8EncodeChar_eq (c : Char) :
    String.utf8EncodeChar c =
      UInt8.ofNat (lead c.toNat) :: continuations (further c.toNat) c.toNat := by
  have hlt : c.val.toNat < 0x110000 := toNat_lt c
  rw [String.utf8EncodeChar, lead, Char.toNat]
  generalize c.val.toNat = v at hlt ⊢
  rcases further_cases v with ⟨hv, hk⟩ | ⟨hlow, hv, hk⟩ | ⟨hlow, hv, hk⟩ | ⟨hv, hk⟩
  · simp [hk, mark, continuations, hv]
  · have hlead : v / 64 % 32 = v / 64 := by omega
    simp [hk, mark, continuations, hv, Nat.not_le_of_lt hlow, hlead]
  · have hlead : v / 4096 % 16 = v / 4096 := by omega
    have hmore : ¬ v ≤ 0x7F := by omega
    simp [hk, mark, continuations, hv, Nat.not_le_of_lt hlow, hlead, hmore]
  · have hlead : v / 262144 % 8 = v / 262144 := by omega
    have hmore : ¬ v ≤ 0x7F ∧ ¬ v ≤ 0x7FF := by omega
    simp [hk, mark, continuations, Nat.not_le_of_lt hv, hlead, hmore]

-- ---------------------------------------------------------------- the order of texts

theorem ofNat_lt_ofNat {a b : Nat} (ha : a < 256) (hb : b < 256) :
    UInt8.ofNat a < UInt8.ofNat b ↔ a < b := by
  rw [UInt8.lt_iff_toNat_lt, UInt8.toNat_ofNat', UInt8.toNat_ofNat', Nat.mod_eq_of_lt ha,
    Nat.mod_eq_of_lt hb]

/-- Values that agree but for their last `k` times six bits differ in the last `k` bytes. -/
theorem continuations_lt {k v w : Nat} (hhigh : v / 64 ^ k = w / 64 ^ k) (h : v < w)
    (x y : List UInt8) : continuations k v ++ x < continuations k w ++ y := by
  induction k with
  | zero =>
    simp only [Nat.pow_zero, Nat.div_one] at hhigh
    omega
  | succ k ih =>
    rw [Nat.pow_succ, ← Nat.div_div_eq_div_mul, ← Nat.div_div_eq_div_mul] at hhigh
    have hle : v / 64 ^ k ≤ w / 64 ^ k := Nat.div_le_div_right (Nat.le_of_lt h)
    rw [continuations, continuations, List.cons_append, List.cons_append, List.cons_lt_cons_iff]
    by_cases heq : v / 64 ^ k = w / 64 ^ k
    · exact .inr ⟨by rw [heq], ih heq⟩
    · refine .inl ((ofNat_lt_ofNat ?_ ?_).mpr ?_) <;> omega

theorem lead_lt_256 {v : Nat} (h : v < 0x110000) : lead v < 256 := by
  rw [lead]
  rcases further_cases v with ⟨hv, hk⟩ | ⟨hlow, hv, hk⟩ | ⟨hlow, hv, hk⟩ | ⟨hv, hk⟩ <;>
    simp only [hk, mark] <;> omega

/-- Of two characters the greater one has the greater first byte, or the same one and then as many
bytes. -/
theorem lead_lt_or_eq {v w : Nat} (h : v < w) (hw : w < 0x110000) :
    lead v < lead w ∨ further v = further w ∧ v / 64 ^ further v = w / 64 ^ further v := by
  rw [lead, lead]
  rcases further_cases v with ⟨hv, hk⟩ | ⟨hlow, hv, hk⟩ | ⟨hlow, hv, hk⟩ | ⟨hv, hk⟩ <;>
    rcases further_cases w with ⟨hv', hk'⟩ | ⟨hlow', hv', hk'⟩ | ⟨hlow', hv', hk'⟩ | ⟨hv', hk'⟩ <;>
    simp only [hk, hk', mark, Nat.reducePow, true_and] <;> omega

theorem encodeChar_append_lt {c d : Char} (h : c < d) (x y : List UInt8) :
    String.utf8EncodeChar c ++ x < String.utf8EncodeChar d ++ y := by
  have hlt : c.toNat < d.toNat := h
  rw [utf8EncodeChar_eq, utf8EncodeChar_eq, List.cons_append, List.cons_append,
    List.cons_lt_cons_iff]
  rcases lead_lt_or_eq hlt (toNat_lt d) with hlead | ⟨hfurther, hhigh⟩
  · exact .inl ((ofNat_lt_ofNat (lead_lt_256 (toNat_lt c)) (lead_lt_256 (toNat_lt d))).mpr hlead)
  · refine .inr ⟨by rw [lead, lead, ← hfurther, hhigh], ?_⟩
    rw [← hfurther]
    exact continuations_lt hhigh hlt x y

theorem encode_lt_encode {a b : String} (h : a < b) : encode a < encode b := by
  have h := String.lt_iff.mp h
  rw [encode, encode]
  generalize a.toList = cs at h ⊢
  generalize b.toList = ds at h ⊢
  induction cs generalizing ds with
  | nil =>
    cases ds with
    | nil => exact absurd h (List.lt_irrefl _)
    | cons d ds =>
      rw [List.flatMap_cons, utf8EncodeChar_eq]
      exact List.nil_lt_cons ..
  | cons c cs ih =>
    cases ds with
    | nil => exact absurd h (List.not_lt_nil _)
    | cons d ds =>
      rw [List.flatMap_cons, List.flatMap_cons]
      rcases List.cons_lt_cons_iff.mp h with hlt | ⟨rfl, hrest⟩
      · exact encodeChar_append_lt hlt _ _
      · exact List.append_left_lt (ih ds hrest)

/-- Texts stand in the order of their bytes. -/
theorem encode_lt_encode_iff {a b : String} : encode a < encode b ↔ a < b := by
  refine ⟨fun h => ?_, encode_lt_encode⟩
  by_cases hlt : a < b
  · exact hlt
  by_cases heq : a = b
  · exact absurd h (heq ▸ List.lt_irrefl _)
  · exact absurd h (List.lt_asymm (encode_lt_encode (lt_of_not_lt_of_ne hlt heq)))

end EntityBroker.Utf8
