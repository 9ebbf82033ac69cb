import EntityBroker.Proofs.Utf8.Spelling

/-!
# What stands at the front of any bytes

Bytes begin with a character, or with an ill-formed part, or they end inside a character. `front`:
the first segment that the machine makes of them tells which, and how long it is. Inside a character
the machine holds what values the bytes so far may be completed to (`Begun`); it refuses a byte only
if no character goes on so.
-/

namespace EntityBroker.Utf8

/-- Some character is spelled with these bytes first. -/
def BeginsCharacter (part : List UInt8) : Prop := ∃ c, part <+: String.utf8EncodeChar c

/-- The bytes begin with no character, and `n` of them are the ill-formed part at the front: as many
as still begin a character, or a single byte. -/
structure IllFormed (bytes : List UInt8) (n : Nat) : Prop where
  pos : 0 < n
  within : n ≤ bytes.length
  no_char (c : Char) : ¬ String.utf8EncodeChar c <+: bytes
  begins : n = 1 ∨ BeginsCharacter (bytes.take n)
  longest (m : Nat) (hm : m ≤ bytes.length) (hbegins : BeginsCharacter (bytes.take m)) : m ≤ n

-- ---------------------------------------------------------------- the machine inside a character

/-- The bytes leave the machine with a character begun: every value that they can be completed to
is a character that is spelled with them first. -/
structure Begun (part : List UInt8) (p : Partial) : Prop where
  reads (rest : List UInt8) : segmentsFrom none (part ++ rest) = segmentsFrom (some p) rest
  length : p.length = part.length
  range : 0x80 ≤ p.low.toNat ∧ p.low.toNat ≤ p.high.toNat ∧ p.high.toNat ≤ 0xBF
  spelled (v : Nat) (hvalue : v / 64 ^ (p.further + 1) = p.value)
    (hlow : p.low.toNat ≤ v / 64 ^ p.further % 64 + 128)
    (hhigh : v / 64 ^ p.further % 64 + 128 ≤ p.high.toNat) :
    ∃ c : Char, c.toNat = v ∧ String.utf8EncodeChar c = part ++ continuations (p.further + 1) v

/-- The values that a first byte and the range of the next one admit are characters with as many
bytes as the first byte tells. -/
theorem begun_of_lead {b : UInt8} {p : Partial} (hfirst : first b = ([], some p))
    (hlength : p.length = 1)
    (hrange : 0x80 ≤ p.low.toNat ∧ p.low.toNat ≤ p.high.toNat ∧ p.high.toNat ≤ 0xBF)
    (hlead : b.toNat = p.value + mark (p.further + 1))
    (h : ∀ v, v / 64 ^ (p.further + 1) = p.value → p.low.toNat ≤ v / 64 ^ p.further % 64 + 128 →
      v / 64 ^ p.further % 64 + 128 ≤ p.high.toNat →
      v.isValidChar ∧ further v = p.further + 1) : Begun [b] p where
  reads rest := by
    rw [List.cons_append, List.nil_append, segmentsFrom, next, hfirst, List.nil_append]
  length := hlength
  range := hrange
  spelled v hvalue hlow hhigh := by
    obtain ⟨hvalid, hfurther⟩ := h v hvalue hlow hhigh
    have hbyte : UInt8.ofNat (lead v) = b := by
      rw [lead, hfurther, hvalue, ← hlead, UInt8.ofNat_toNat]
    refine ⟨Char.ofNatAux v hvalid, rfl, ?_⟩
    have hv : (Char.ofNatAux v hvalid).toNat = v := rfl
    rw [utf8EncodeChar_eq, hv, hfurther, hbyte]
    rfl

section
variable {b : UInt8} {n : Nat}

theorem begun_two (hb : b.toNat = n + 0xC0) (hlow : 2 ≤ n) (hhigh : n ≤ 0x1F) :
    ∃ p, first b = ([], some p) ∧ Begun [b] p := by
  have hfirst := first_two hb hlow hhigh
  refine ⟨_, hfirst, begun_of_lead hfirst rfl ?_ hb fun v hvalue _ _ => ?_⟩
  · show 0x80 ≤ 0x80 ∧ 0x80 ≤ 0xBF ∧ 0xBF ≤ 0xBF
    decide
  have hvalue : v / 64 = n := hvalue
  have hfurther : further v = 1 := by
    rcases further_cases v with hv | hv | hv | hv <;> omega
  exact ⟨.inl (by omega), hfurther⟩

theorem begun_three (hb : b.toNat = n + 0xE0) (hhigh : n ≤ 0xF) :
    ∃ p, first b = ([], some p) ∧ Begun [b] p := by
  have hfirst := first_three hb hhigh
  refine ⟨_, hfirst, begun_of_lead hfirst rfl ?_ hb fun v hvalue hlow hhigh => ?_⟩
  · rcases Nat.eq_zero_or_pos n with rfl | hpos
    · decide
    · simp only [if_neg (Nat.ne_of_gt hpos)]
      split <;> decide
  have hvalue : v / 4096 = n := hvalue
  -- neither a character of fewer bytes nor a surrogate
  have hzero : n = 0 → 0xA0 ≤ v / 64 % 64 + 128 := fun h => by simpa [h] using hlow
  have hsurrogate : n = 0xD → v / 64 % 64 + 128 ≤ 0x9F := fun h => by simpa [h] using hhigh
  have hfurther : further v = 2 := by
    rcases further_cases v with hv | hv | hv | hv <;> omega
  have hvalid : v.isValidChar := by
    rw [Nat.isValidChar]
    omega
  exact ⟨hvalid, hfurther⟩

theorem begun_four (hb : b.toNat = n + 0xF0) (hhigh : n ≤ 4) :
    ∃ p, first b = ([], some p) ∧ Begun [b] p := by
  have hfirst := first_four hb hhigh
  refine ⟨_, hfirst, begun_of_lead hfirst rfl ?_ hb fun v hvalue hlow hhigh => ?_⟩
  · rcases Nat.eq_zero_or_pos n with rfl | hpos
    · decide
    · simp only [if_neg (Nat.ne_of_gt hpos)]
      split <;> decide
  have hvalue : v / 262144 = n := hvalue
  -- neither a character of fewer bytes nor past the last one
  have hzero : n = 0 → 0x90 ≤ v / 4096 % 64 + 128 := fun h => by simpa [h] using hlow
  have hlast : n = 4 → v / 4096 % 64 + 128 ≤ 0x8F := fun h => by simpa [h] using hhigh
  have hfurther : further v = 3 := by
    rcases further_cases v with hv | hv | hv | hv <;> omega
  have hvalid : v.isValidChar := by
    rw [Nat.isValidChar]
    omega
  exact ⟨hvalid, hfurther⟩

theorem first_broken (h : 0x7F < b.toNat ∧ b.toNat < 0xC2 ∨ 0xF4 < b.toNat) :
    first b = ([.broken 1], none) := by
  simp only [first, UInt8.le_iff_toNat_le, UInt8.lt_iff_toNat_lt, ← UInt8.toNat_inj,
    UInt8.toNat_ofNat]
  rw [if_neg (by omega)]
  rcases h with h | h
  · rw [if_pos (by omega)]
  · repeat rw [if_neg (by omega)]

end

/-- What a byte between two characters is. -/
inductive FirstByte (b : UInt8) : Step → Prop
  | char (c : Char) (h : String.utf8EncodeChar c = [b]) : FirstByte b ([.char c], none)
  | broken : FirstByte b ([.broken 1], none)
  | begun (p : Partial) (h : Begun [b] p) : FirstByte b ([], some p)

theorem firstByte (b : UInt8) : FirstByte b (first b) := by
  have hb : b.toNat < 256 := b.toNat_lt
  by_cases hone : b.toNat ≤ 0x7F
  · have hvalid : b.toNat.isValidChar := .inl (by omega)
    have hchar : Char.ofNat b.toNat = Char.ofNatAux b.toNat hvalid := dif_pos hvalid
    have hv : (Char.ofNatAux b.toNat hvalid).toNat = b.toNat := rfl
    have hfurther : further b.toNat = 0 := by
      rcases further_cases b.toNat with hv | hv | hv | hv <;> omega
    rw [first_one hone, hchar]
    refine .char _ ?_
    rw [utf8EncodeChar_eq, hv, lead, hfurther]
    simp [mark, continuations]
  by_cases hbroken : b.toNat < 0xC2 ∨ 0xF4 < b.toNat
  · rw [first_broken (by omega)]
    exact .broken
  have hbegun : ∃ p, first b = ([], some p) ∧ Begun [b] p := by
    by_cases htwo : b.toNat < 0xE0
    · exact begun_two (n := b.toNat - 0xC0) (by omega) (by omega) (by omega)
    by_cases hthree : b.toNat < 0xF0
    · exact begun_three (n := b.toNat - 0xE0) (by omega) (by omega)
    · exact begun_four (n := b.toNat - 0xF0) (by omega) (by omega)
  obtain ⟨p, hfirst, hp⟩ := hbegun
  rw [hfirst]
  exact .begun p hp

namespace Begun

variable {part : List UInt8} {p : Partial} {b : UInt8}

/-- The next byte has six bits of the value; what remains is spelled by the bytes after it. -/
theorem spelled_cons (h : Begun part p) (hlow : p.low ≤ b) (hhigh : b ≤ p.high) {v : Nat}
    (hvalue : v / 64 ^ p.further = p.value * 64 + (b.toNat - 0x80)) :
    ∃ c : Char, c.toNat = v ∧
      String.utf8EncodeChar c = part ++ b :: continuations p.further v := by
  obtain ⟨hrange, -, hrange'⟩ := h.range
  have hlow := UInt8.le_iff_toNat_le.mp hlow
  have hhigh := UInt8.le_iff_toNat_le.mp hhigh
  have hdigit : v / 64 ^ p.further % 64 + 128 = b.toNat := by omega
  have htop : v / 64 ^ (p.further + 1) = p.value := by
    rw [Nat.pow_succ, ← Nat.div_div_eq_div_mul]
    omega
  obtain ⟨c, hc, hspelled⟩ := h.spelled v htop (by omega) (by omega)
  rw [continuations, hdigit, UInt8.ofNat_toNat] at hspelled
  exact ⟨c, hc, hspelled⟩

theorem char (h : Begun part p) (hlow : p.low ≤ b) (hhigh : b ≤ p.high) (hlast : p.further = 0) :
    ∃ c, p.next b = ([.char c], none) ∧ String.utf8EncodeChar c = part ++ [b] := by
  obtain ⟨c, hc, hspelled⟩ := h.spelled_cons hlow hhigh (v := p.value * 64 + (b.toNat - 0x80))
    (by rw [hlast, Nat.pow_zero, Nat.div_one])
  rw [hlast] at hspelled
  refine ⟨c, ?_, hspelled⟩
  rw [Partial.next, if_pos ⟨hlow, hhigh⟩, hlast]
  simp only [← hc, Char.ofNat_toNat]

theorem next (h : Begun part p) (hlow : p.low ≤ b) (hhigh : b ≤ p.high) {k : Nat}
    (hmore : p.further = k + 1) : ∃ q, p.next b = ([], some q) ∧ Begun (part ++ [b]) q := by
  have hnext : p.next b =
      ([], some ⟨p.value * 64 + (b.toNat - 0x80), 0x80, 0xBF, k, p.length + 1⟩) := by
    rw [Partial.next, if_pos ⟨hlow, hhigh⟩, hmore]
  refine ⟨_, hnext, fun rest => ?_, ?_, ?_, fun v hvalue _ _ => ?_⟩
  · rw [List.append_assoc, List.cons_append, List.nil_append, h.reads, segmentsFrom, Utf8.next,
      hnext, List.nil_append]
  · rw [List.length_append, List.length_singleton, h.length]
  · show 0x80 ≤ 0x80 ∧ 0x80 ≤ 0xBF ∧ 0xBF ≤ 0xBF
    decide
  · have hspelled := h.spelled_cons hlow hhigh (v := v) (by rw [hmore]; exact hvalue)
    rwa [hmore, List.append_cons] at hspelled

/-- There always is a character that the bytes begin. -/
theorem beginsCharacter (h : Begun part p) : BeginsCharacter part := by
  obtain ⟨hlow, hrange, hhigh⟩ := h.range
  have hpow : 0 < 64 ^ p.further := Nat.pow_pos (by decide)
  have hvalue : (p.value * 64 + (p.low.toNat - 0x80)) * 64 ^ p.further / 64 ^ p.further =
      p.value * 64 + (p.low.toNat - 0x80) := Nat.mul_div_cancel _ hpow
  obtain ⟨c, -, hspelled⟩ := h.spelled_cons (UInt8.le_refl _)
    (UInt8.le_iff_toNat_le.mpr hrange) hvalue
  exact ⟨c, hspelled ▸ List.prefix_append ..⟩

end Begun

-- ---------------------------------------------------------------- the front of any bytes

section
variable {bytes part : List UInt8} {n : Nat}

theorem BeginsCharacter.of_prefix (h : BeginsCharacter bytes) (hpart : part <+: bytes) :
    BeginsCharacter part := by
  obtain ⟨c, hc⟩ := h
  exact ⟨c, hpart.trans hc⟩

theorem segments_of_begins (hne : part ≠ []) (h : BeginsCharacter part) :
    (∃ c, segments part = [.char c]) ∨ segments part = [.unfinished part.length] := by
  obtain ⟨c, hc⟩ := h
  have htake := List.prefix_iff_eq_take.mp hc
  by_cases hlength : part.length < c.utf8Size
  · refine .inr ?_
    have hpart := segmentsFrom_take_encodeChar c (List.length_pos_iff.mpr hne) hlength
    rwa [← htake] at hpart
  · refine .inl ⟨c, ?_⟩
    have hwhole : part = String.utf8EncodeChar c := by
      refine hc.eq_of_length_le ?_
      rw [String.length_utf8EncodeChar]
      exact Nat.not_lt.mp hlength
    rw [hwhole, segments, ← List.append_nil (String.utf8EncodeChar c), segmentsFrom_encodeChar]
    rfl

theorem not_begins_of_broken {rest : List Segment} (h : segments part = .broken n :: rest) :
    ¬ BeginsCharacter part := by
  intro hbegins
  have hne : part ≠ [] := by
    rintro rfl
    cases h
  rcases segments_of_begins hne hbegins with ⟨c, hc⟩ | hunfinished
  · cases h.symm.trans hc
  · cases h.symm.trans hunfinished

theorem segments_of_prefix {c : Char} (h : String.utf8EncodeChar c <+: bytes) :
    ∃ rest, segments bytes = .char c :: rest := by
  obtain ⟨rest, rfl⟩ := h
  exact ⟨_, segmentsFrom_encodeChar c rest⟩

theorem no_char_of_segments {s : Segment} {rest : List Segment} (h : segments bytes = s :: rest)
    (hs : ∀ c, s ≠ .char c) (c : Char) : ¬ String.utf8EncodeChar c <+: bytes := by
  intro hc
  obtain ⟨others, hothers⟩ := segments_of_prefix hc
  exact hs c (List.cons.inj (h.symm.trans hothers)).1

theorem encodeChar_prefix_unique {c d : Char} (hc : String.utf8EncodeChar c <+: bytes)
    (hd : String.utf8EncodeChar d <+: bytes) : c = d := by
  obtain ⟨rest, hrest⟩ := segments_of_prefix hc
  obtain ⟨others, hothers⟩ := segments_of_prefix hd
  cases hrest.symm.trans hothers
  rfl

/-- Where more bytes than `n` begin no character, no more than `n` do. -/
theorem le_of_begins {m : Nat} (h : ¬ BeginsCharacter (bytes.take (n + 1)))
    (hm : BeginsCharacter (bytes.take m)) : m ≤ n := by
  refine Nat.le_of_not_lt fun hlt => h (hm.of_prefix ?_)
  exact List.take_prefix_take_left hlt

end

/-- What stands at the front of the bytes, with the segments that the machine makes of them. -/
inductive Front (bytes : List UInt8) : List Segment → Prop
  | nil (h : bytes = []) : Front bytes []
  | char (c : Char) (rest : List UInt8) (h : bytes = String.utf8EncodeChar c ++ rest) :
      Front bytes (.char c :: segments rest)
  | broken (n : Nat) (h : IllFormed bytes n) (hmore : ¬ BeginsCharacter bytes) :
      Front bytes (.broken n :: segments (bytes.drop n))
  | unfinished (h : IllFormed bytes bytes.length) (hbegins : BeginsCharacter bytes) :
      Front bytes [.unfinished bytes.length]

namespace Begun

variable {part : List UInt8} {p : Partial} {b : UInt8}

theorem ne_nil (h : Begun part p) : part ≠ [] := by
  rintro rfl
  cases h.reads []

theorem segments_refused (h : Begun part p) (hb : ¬ (p.low ≤ b ∧ b ≤ p.high)) (rest : List UInt8) :
    segments (part ++ b :: rest) = .broken part.length :: segments (b :: rest) := by
  rw [segments, h.reads, segmentsFrom, Utf8.next, Partial.next, if_neg hb, h.length]
  rfl

theorem front (h : Begun part p) (rest : List UInt8) :
    Front (part ++ rest) (segments (part ++ rest)) := by
  induction rest generalizing part p with
  | nil =>
    have hsegments : segments part = [.unfinished part.length] := by
      have := h.reads []
      rwa [List.append_nil, segmentsFrom, Option.toList_some, List.map_singleton, h.length] at this
    rw [List.append_nil, hsegments]
    refine .unfinished ⟨List.length_pos_iff.mpr h.ne_nil, Nat.le_refl _,
      no_char_of_segments hsegments (by simp), .inr ?_, fun m hm _ => hm⟩ h.beginsCharacter
    rw [List.take_length]
    exact h.beginsCharacter
  | cons b rest ih =>
    -- a byte in range ends the character or goes on with it; any other one is refused
    by_cases hb : p.low ≤ b ∧ b ≤ p.high
    · cases hfurther : p.further with
      | zero =>
        obtain ⟨c, hnext, hc⟩ := h.char hb.1 hb.2 hfurther
        have hsegments : segments (part ++ b :: rest) = .char c :: segments rest := by
          rw [segments, h.reads, segmentsFrom, Utf8.next, hnext]
          rfl
        rw [hsegments]
        exact .char c rest (by rw [hc, ← List.append_cons])
      | succ k =>
        obtain ⟨q, -, hq⟩ := h.next hb.1 hb.2 hfurther
        rw [List.append_cons]
        exact ih hq
    · have hrefused : ¬ BeginsCharacter (part ++ [b]) :=
        not_begins_of_broken (h.segments_refused hb [])
      have htake : (part ++ b :: rest).take (part.length + 1) = part ++ [b] := by
        rw [List.append_cons, ← List.length_singleton (a := b), ← List.length_append,
          List.take_left]
      have hsegments := h.segments_refused hb rest
      have hill : IllFormed (part ++ b :: rest) part.length := by
        refine ⟨List.length_pos_iff.mpr h.ne_nil, ?_, no_char_of_segments hsegments (by simp),
          .inr ?_, fun m _ hm => ?_⟩
        · rw [List.length_append]
          exact Nat.le_add_right ..
        · rw [List.take_left]
          exact h.beginsCharacter
        · exact le_of_begins (htake ▸ hrefused) hm
      have hfront := Front.broken _ hill (not_begins_of_broken hsegments)
      rwa [List.drop_left, ← hsegments] at hfront

end Begun

theorem front (bytes : List UInt8) : Front bytes (segments bytes) := by
  cases bytes with
  | nil => exact .nil rfl
  | cons b rest =>
    have hfirst := firstByte b
    have hsegments : segments (b :: rest) = (first b).1 ++ segmentsFrom (first b).2 rest := rfl
    cases hstep : first b with
    | mk ended begun =>
    rw [hstep] at hfirst hsegments
    cases hfirst with
    | char c hc =>
      rw [hsegments]
      exact .char c rest (by rw [hc]; rfl)
    | broken =>
      have hone : segments [b] = [.broken 1] := by
        show (first b).1 ++ segmentsFrom (first b).2 [] = _
        rw [hstep]
        rfl
      have hrefused : ¬ BeginsCharacter ((b :: rest).take 1) := not_begins_of_broken hone
      have hill : IllFormed (b :: rest) 1 :=
        ⟨Nat.one_pos, Nat.le_add_left .., no_char_of_segments hsegments (by simp), .inl rfl,
          fun _ _ hm => Nat.le_succ_of_le (le_of_begins hrefused hm)⟩
      rw [hsegments]
      exact .broken 1 hill (not_begins_of_broken hsegments)
    | begun p hp => exact hp.front rest

end EntityBroker.Utf8
