import EntityBroker.Utf8

/-!
# Reading the bytes of one character

The machine reads the bytes that encode a character to their end without ending a segment before,
and then ends one with that character (`spells_encodeChar`). So in front of any bytes they make one
segment (`segmentsFrom_encodeChar`), and bytes that stop short of the last one are left unfinished
(`segmentsFrom_take_encodeChar`).
-/

namespace EntityBroker.Utf8

-- ---------------------------------------------------------------- one byte

theorem first_one {b : UInt8} (h : b.toNat ≤ 0x7F) :
    first b = ([.char (Char.ofNat b.toNat)], none) := by
  have hb : b ≤ 0x7F := UInt8.le_iff_toNat_le.mpr h
  rw [first, if_pos hb]

theorem first_two {b : UInt8} {n : Nat} (hb : b.toNat = n + 0xC0) (hlow : 2 ≤ n)
    (hhigh : n ≤ 0x1F) : first b = ([], some ⟨n, 0x80, 0xBF, 0, 1⟩) := by
  simp only [first, UInt8.le_iff_toNat_le, UInt8.lt_iff_toNat_lt, UInt8.toNat_ofNat, hb]
  rw [if_neg (by omega), if_neg (by omega), if_pos (by omega), Nat.add_sub_cancel]

/-- The second byte must not make the character one of fewer bytes, nor a surrogate. -/
theorem first_three {b : UInt8} {n : Nat} (hb : b.toNat = n + 0xE0) (hhigh : n ≤ 0xF) :
    first b =
      ([], some ⟨n, if n = 0 then 0xA0 else 0x80, if n = 0xD then 0x9F else 0xBF, 1, 1⟩) := by
  simp only [first, UInt8.le_iff_toNat_le, UInt8.lt_iff_toNat_lt, ← UInt8.toNat_inj,
    UInt8.toNat_ofNat, hb]
  rw [if_neg (by omega), if_neg (by omega), if_neg (by omega)]
  by_cases hzero : n = 0
  · simp [hzero]
  by_cases hsurrogate : n = 0xD
  · simp [hsurrogate]
  rw [if_neg (by omega), if_neg (by omega), if_pos (by omega), if_neg hzero, if_neg hsurrogate,
    Nat.add_sub_cancel]

/-- The second byte must not make the character one of fewer bytes, nor lead past the last one. -/
theorem first_four {b : UInt8} {n : Nat} (hb : b.toNat = n + 0xF0) (hhigh : n ≤ 4) :
    first b = ([], some ⟨n, if n = 0 then 0x90 else 0x80, if n = 4 then 0x8F else 0xBF, 2, 1⟩) := by
  simp only [first, UInt8.le_iff_toNat_le, UInt8.lt_iff_toNat_lt, ← UInt8.toNat_inj,
    UInt8.toNat_ofNat, hb]
  rw [if_neg (by omega), if_neg (by omega), if_neg (by omega), if_neg (by omega),
    if_neg (by omega), if_neg (by omega)]
  by_cases hzero : n = 0
  · simp [hzero]
  by_cases hfour : n = 4
  · simp [hfour]
  rw [if_neg (by omega), if_pos (by omega), if_neg hzero, if_neg hfour, Nat.add_sub_cancel]

/-- The byte that adds `n % 64` to the value of a character. -/
theorem toNat_continuation (n : Nat) : (UInt8.ofNat (n % 64 + 128)).toNat = n % 64 + 128 := by
  rw [UInt8.toNat_ofNat']
  omega

theorem continuation_range (n : Nat) :
    (0x80 : UInt8).toNat ≤ n % 64 + 128 ∧ n % 64 + 128 ≤ (0xBF : UInt8).toNat := by
  have hlow : (0x80 : UInt8).toNat = 0x80 := rfl
  have hhigh : (0xBF : UInt8).toNat = 0xBF := rfl
  omega

theorem low_le_continuation {q : Prop} [Decidable q] {low : UInt8} {n : Nat}
    (h : q → low.toNat ≤ n % 64 + 128) : (if q then low else 0x80).toNat ≤ n % 64 + 128 := by
  split
  · rename_i hq
    exact h hq
  · exact (continuation_range n).1

theorem continuation_le_high {q : Prop} [Decidable q] {high : UInt8} {n : Nat}
    (h : q → n % 64 + 128 ≤ high.toNat) : n % 64 + 128 ≤ (if q then high else 0xBF).toNat := by
  split
  · rename_i hq
    exact h hq
  · exact (continuation_range n).2

theorem Partial.next_continuation {p : Partial} {n : Nat} (hvalue : p.value = n / 64)
    (hlow : p.low.toNat ≤ n % 64 + 128) (hhigh : n % 64 + 128 ≤ p.high.toNat) :
    p.next (UInt8.ofNat (n % 64 + 128)) =
      match p.further with
      | 0 => ([.char (Char.ofNat n)], none)
      | further + 1 => ([], some ⟨n, 0x80, 0xBF, further, p.length + 1⟩) := by
  have hrange : p.low ≤ UInt8.ofNat (n % 64 + 128) ∧ UInt8.ofNat (n % 64 + 128) ≤ p.high := by
    rw [UInt8.le_iff_toNat_le, UInt8.le_iff_toNat_le, toNat_continuation]
    exact ⟨hlow, hhigh⟩
  have hn : p.value * 64 + ((UInt8.ofNat (n % 64 + 128)).toNat - 128) = n := by
    rw [toNat_continuation, hvalue]
    omega
  rw [next, if_pos hrange]
  cases p.further <;> simp only [hn]

-- ---------------------------------------------------------------- the bytes of a character

/-- How many bytes of a character were read. -/
def bytesRead (begun : Option Partial) : Nat := begun.elim 0 Partial.length

/-- The bytes are the rest of a character after what is begun: reading them ends no segment before
the last byte, and ends the character with it. -/
inductive Spells (c : Char) : Option Partial → List UInt8 → Prop
  | last {begun : Option Partial} {b : UInt8} (h : next begun b = ([.char c], none)) :
      Spells c begun [b]
  | further {begun : Option Partial} {b : UInt8} {p : Partial} {rest : List UInt8}
      (h : next begun b = ([], some p)) (hlength : p.length = bytesRead begun + 1)
      (hrest : Spells c (some p) rest) : Spells c begun (b :: rest)

namespace Spells

theorem lastContinuation (n length : Nat) :
    Spells (Char.ofNat n) (some ⟨n / 64, 0x80, 0xBF, 0, length⟩) [UInt8.ofNat (n % 64 + 128)] :=
  .last (Partial.next_continuation rfl (continuation_range n).1 (continuation_range n).2)

theorem continuation {c : Char} {p : Partial} {n further : Nat} {rest : List UInt8}
    (hfurther : p.further = further + 1) (hvalue : p.value = n / 64)
    (hlow : p.low.toNat ≤ n % 64 + 128) (hhigh : n % 64 + 128 ≤ p.high.toNat)
    (hrest : Spells c (some ⟨n, 0x80, 0xBF, further, p.length + 1⟩) rest) :
    Spells c (some p) (UInt8.ofNat (n % 64 + 128) :: rest) := by
  refine .further ?_ rfl hrest
  rw [next, Partial.next_continuation hvalue hlow hhigh, hfurther]

theorem two {v : Nat} (hlow : 0x7F < v) (hhigh : v ≤ 0x7FF) :
    Spells (Char.ofNat v) none [UInt8.ofNat (v / 64 % 32 + 192), UInt8.ofNat (v % 64 + 128)] := by
  have hlead : (UInt8.ofNat (v / 64 % 32 + 192)).toNat = v / 64 + 0xC0 := by
    rw [UInt8.toNat_ofNat']
    omega
  refine .further (first_two hlead (by omega) (by omega)) rfl ?_
  exact lastContinuation v 1

theorem three {v : Nat} (hlow : 0x7FF < v) (hhigh : v ≤ 0xFFFF)
    (hsurrogate : v < 0xD800 ∨ 0xDFFF < v) :
    Spells (Char.ofNat v) none [UInt8.ofNat (v / 4096 % 16 + 224),
      UInt8.ofNat (v / 64 % 64 + 128), UInt8.ofNat (v % 64 + 128)] := by
  have hlead : (UInt8.ofNat (v / 4096 % 16 + 224)).toNat = v / 4096 + 0xE0 := by
    rw [UInt8.toNat_ofNat']
    omega
  have hvalue : v / 4096 = v / 64 / 64 := by omega
  refine .further (first_three hlead (by omega)) rfl
    (.continuation rfl hvalue (low_le_continuation fun hzero => ?_)
      (continuation_le_high fun hd => ?_) (lastContinuation v 2))
  · show 0xA0 ≤ _
    omega
  · show _ ≤ 0x9F
    omega

theorem four {v : Nat} (hlow : 0xFFFF < v) (hhigh : v ≤ 0x10FFFF) :
    Spells (Char.ofNat v) none [UInt8.ofNat (v / 262144 % 8 + 240),
      UInt8.ofNat (v / 4096 % 64 + 128), UInt8.ofNat (v / 64 % 64 + 128),
      UInt8.ofNat (v % 64 + 128)] := by
  have hlead : (UInt8.ofNat (v / 262144 % 8 + 240)).toNat = v / 262144 + 0xF0 := by
    rw [UInt8.toNat_ofNat']
    omega
  have hvalue : v / 262144 = v / 4096 / 64 := by omega
  have hvalue' : v / 4096 = v / 64 / 64 := by omega
  refine .further (first_four hlead (by omega)) rfl
    (.continuation rfl hvalue (low_le_continuation fun hzero => ?_)
      (continuation_le_high fun hfour => ?_)
      (.continuation rfl hvalue' (continuation_range _).1 (continuation_range _).2
        (lastContinuation v 3)))
  · show 0x90 ≤ _
    omega
  · show _ ≤ 0x8F
    omega

/-- What a character's bytes lack of its segment is their end. -/
theorem segmentsFrom_append {c : Char} {begun : Option Partial} {bytes : List UInt8}
    (h : Spells c begun bytes) (rest : List UInt8) :
    segmentsFrom begun (bytes ++ rest) = .char c :: segmentsFrom none rest := by
  induction h with
  | last h => simp [segmentsFrom, h]
  | further h _ _ ih => simpa [segmentsFrom, h] using ih

theorem segmentsFrom_take {c : Char} {begun : Option Partial} {bytes : List UInt8}
    (h : Spells c begun bytes) {n : Nat} (hn : n < bytes.length) (hpos : 0 < bytesRead begun + n) :
    segmentsFrom begun (bytes.take n) = [.unfinished (bytesRead begun + n)] := by
  induction h generalizing n with
  | @last begun b h =>
    have hzero : n = 0 := by simpa using hn
    subst hzero
    cases begun with
    | none => simp [bytesRead] at hpos
    | some p => rfl
  | @further begun b p rest h hlength _ ih =>
    cases n with
    | zero =>
      cases begun with
      | none => simp [bytesRead] at hpos
      | some p => rfl
    | succ n =>
      have hp : bytesRead (some p) = bytesRead begun + 1 := hlength
      have hrest := ih (Nat.lt_of_succ_lt_succ hn) (by omega)
      rw [List.take_succ_cons, segmentsFrom, h, hrest, hp, List.nil_append, Nat.add_right_comm,
        Nat.add_assoc]

end Spells

theorem spells_encodeChar (c : Char) : Spells c none (String.utf8EncodeChar c) := by
  have hvalid : c.val.toNat < 0xD800 ∨ 0xDFFF < c.val.toNat ∧ c.val.toNat < 0x110000 := c.valid
  suffices h : Spells (Char.ofNat c.val.toNat) none (String.utf8EncodeChar c) by
    rwa [show Char.ofNat c.val.toNat = c from c.ofNat_toNat] at h
  rw [String.utf8EncodeChar]
  -- one case for each length, up to the bounds at which the encoding changes it
  by_cases hone : c.val.toNat ≤ 0x7F
  · have hbyte : (UInt8.ofNat c.val.toNat).toNat = c.val.toNat := by
      rw [UInt8.toNat_ofNat']
      omega
    rw [if_pos hone]
    refine .last ?_
    rw [next, first_one (by omega), hbyte]
  by_cases htwo : c.val.toNat ≤ 0x7FF
  · rw [if_neg hone, if_pos htwo]
    exact .two (by omega) htwo
  by_cases hthree : c.val.toNat ≤ 0xFFFF
  · rw [if_neg hone, if_neg htwo, if_pos hthree]
    exact .three (by omega) hthree (by omega)
  · rw [if_neg hone, if_neg htwo, if_neg hthree]
    exact .four (by omega) (by omega)

theorem segmentsFrom_encodeChar (c : Char) (rest : List UInt8) :
    segmentsFrom none (String.utf8EncodeChar c ++ rest) = .char c :: segmentsFrom none rest :=
  (spells_encodeChar c).segmentsFrom_append rest

theorem segmentsFrom_take_encodeChar (c : Char) {n : Nat} (hpos : 0 < n) (hn : n < c.utf8Size) :
    segmentsFrom none ((String.utf8EncodeChar c).take n) = [.unfinished n] := by
  have hlength : n < (String.utf8EncodeChar c).length := by rwa [String.length_utf8EncodeChar]
  simpa [bytesRead] using (spells_encodeChar c).segmentsFrom_take hlength (by simpa [bytesRead])

end EntityBroker.Utf8
