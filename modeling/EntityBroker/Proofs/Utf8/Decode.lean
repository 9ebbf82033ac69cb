import EntityBroker.Proofs.Utf8.Front

/-!
# What any bytes are read as

Bytes need not spell a text. `decode_cases`: strict decoding accepts the bytes of a text, and of
other bytes it tells where the longest text at their front ends. `shownLossily_iff`: lossy decoding
keeps the characters, and shows one replacement character for each ill-formed part, as long as it
can be.
-/

namespace EntityBroker.Utf8

/-- Bytes with the characters that are shown for them: those that they spell, and a replacement
character for each ill-formed part. -/
inductive ShownLossily : List UInt8 → List Char → Prop
  | nil : ShownLossily [] []
  | char (c : Char) {rest : List UInt8} {shown : List Char} (h : ShownLossily rest shown) :
      ShownLossily (String.utf8EncodeChar c ++ rest) (c :: shown)
  | replaced {bytes : List UInt8} {n : Nat} {shown : List Char} (hn : IllFormed bytes n)
      (h : ShownLossily (bytes.drop n) shown) : ShownLossily bytes ('\uFFFD' :: shown)

/-- The longest text at the front of the bytes takes `n` of them. -/
structure IsLongestValid (bytes : List UInt8) (n : Nat) : Prop where
  valid : ∃ text, encode text <+: bytes ∧ (encode text).length = n
  longest (text : String) (h : encode text <+: bytes) : (encode text).length ≤ n

/-- The fault is that of the bytes: it stands after the longest text at their front, where there is
an ill-formed part or the bytes end inside a character. -/
inductive Fault.Of (bytes : List UInt8) : Fault → Prop
  | broken {n k : Nat} (hn : IsLongestValid bytes n) (hk : IllFormed (bytes.drop n) k)
      (hmore : ¬ BeginsCharacter (bytes.drop n)) : Fault.Of bytes ⟨n, some k⟩
  | unfinished {n : Nat} (hn : IsLongestValid bytes n) (hne : bytes.drop n ≠ [])
      (hbegins : BeginsCharacter (bytes.drop n)) : Fault.Of bytes ⟨n, none⟩

-- ---------------------------------------------------------------- lossy decoding

theorem IllFormed.unique {bytes : List UInt8} {n m : Nat} (hn : IllFormed bytes n)
    (hm : IllFormed bytes m) : n = m := by
  have hle : ∀ {n m : Nat}, IllFormed bytes n → IllFormed bytes m → n ≤ m := by
    intro n m hn hm
    rcases hn.begins with rfl | hbegins
    · exact hm.pos
    · exact hm.longest n hn.within hbegins
  exact Nat.le_antisymm (hle hn hm) (hle hm hn)

theorem ShownLossily.unique {bytes : List UInt8} {a b : List Char} (ha : ShownLossily bytes a)
    (hb : ShownLossily bytes b) : a = b := by
  induction ha generalizing b with
  | nil =>
    generalize hbytes : ([] : List UInt8) = bytes at hb
    cases hb with
    | nil => rfl
    | char c h =>
      rw [utf8EncodeChar_eq] at hbytes
      cases hbytes
    | replaced hn _ =>
      subst hbytes
      exact absurd hn.within (Nat.not_le_of_lt hn.pos)
  | @char c rest shown _ ih =>
    generalize hbytes : String.utf8EncodeChar c ++ rest = bytes at hb
    cases hb with
    | nil =>
      rw [utf8EncodeChar_eq] at hbytes
      cases hbytes
    | @char d others _ h =>
      have hcd : c = d := encodeChar_prefix_unique (hbytes ▸ List.prefix_append ..)
        (List.prefix_append ..)
      subst hcd
      rw [List.append_cancel_left hbytes] at ih
      rw [ih h]
    | replaced hn h => exact absurd (hbytes ▸ List.prefix_append ..) (hn.no_char c)
  | @replaced bytes n shown hn _ ih =>
    cases hb with
    | nil => exact absurd hn.within (Nat.not_le_of_lt hn.pos)
    | char c h => exact absurd (List.prefix_append ..) (hn.no_char c)
    | replaced hm h =>
      rw [hm.unique hn] at h
      rw [ih h]

theorem length_lt_encodeChar_append (c : Char) (rest : List UInt8) :
    rest.length < (String.utf8EncodeChar c ++ rest).length := by
  rw [List.length_append, String.length_utf8EncodeChar]
  exact Nat.lt_add_of_pos_left c.utf8Size_pos

theorem shownLossily_segments (bytes : List UInt8) :
    ShownLossily bytes ((segments bytes).map Segment.shown) := by
  have hfront := front bytes
  generalize segments bytes = ended at hfront
  cases hfront with
  | nil h =>
    rw [h]
    exact .nil
  | char c rest h =>
    have hshorter : rest.length < bytes.length := h ▸ length_lt_encodeChar_append c rest
    rw [h]
    exact .char c (shownLossily_segments rest)
  | broken n h _ =>
    have hshorter : (bytes.drop n).length < bytes.length := by
      have := h.pos
      have := h.within
      rw [List.length_drop]
      omega
    exact .replaced h (shownLossily_segments (bytes.drop n))
  | unfinished h _ =>
    refine .replaced h ?_
    rw [List.drop_length]
    exact .nil
termination_by bytes.length
decreasing_by all_goals assumption

theorem shownLossily_iff {bytes : List UInt8} {shown : List Char} :
    ShownLossily bytes shown ↔ String.ofList shown = decodeLossy bytes := by
  have hdecoded := shownLossily_segments bytes
  rw [decodeLossy, String.ofList_inj]
  refine ⟨fun h => h.unique hdecoded, ?_⟩
  rintro rfl
  exact hdecoded

example : decodeLossy [0x61, 0xF0, 0x9F, 0x62] = "a\uFFFDb" := by decide

-- ---------------------------------------------------------------- strict decoding

/-- All bytes are a text, and then bytes that begin with no character. -/
theorem exists_kept (bytes : List UInt8) :
    ∃ kept rest, bytes = encode kept ++ rest ∧ ∀ c, ¬ String.utf8EncodeChar c <+: rest := by
  by_cases hchar : ∃ c, String.utf8EncodeChar c <+: bytes
  · obtain ⟨c, others, rfl⟩ := hchar
    have hshorter := length_lt_encodeChar_append c others
    obtain ⟨kept, rest, hothers, hrest⟩ := exists_kept others
    refine ⟨String.singleton c ++ kept, rest, ?_, hrest⟩
    rw [encode_append, encode_singleton, List.append_assoc, ← hothers]
  · exact ⟨"", bytes, rfl, fun c hc => hchar ⟨c, hc⟩⟩
termination_by bytes.length

theorem isLongestValid_append (kept : String) {rest : List UInt8}
    (hrest : ∀ c, ¬ String.utf8EncodeChar c <+: rest) :
    IsLongestValid (encode kept ++ rest) (encode kept).length := by
  refine ⟨⟨kept, List.prefix_append .., rfl⟩, fun text htext => ?_⟩
  induction kept using text_induction generalizing text with
  | empty =>
    induction text using text_induction with
    | empty => exact Nat.le_refl _
    | cons c text _ =>
      rw [encode_append, encode_singleton] at htext
      exact absurd ((List.prefix_append ..).trans htext) (hrest c)
  | cons d kept ih =>
    induction text using text_induction with
    | empty => exact Nat.zero_le _
    | cons c text _ =>
      rw [encode_append, encode_singleton, encode_append, encode_singleton,
        List.append_assoc] at htext
      have hcd : c = d := encodeChar_prefix_unique ((List.prefix_append ..).trans htext)
        (List.prefix_append ..)
      subst hcd
      have hle := ih text ((List.prefix_append_right_inj _).mp htext)
      rw [encode_append, encode_append, encode_singleton, List.length_append, List.length_append]
      exact Nat.add_le_add_left hle _

theorem decode_append (kept : String) (rest : List UInt8) :
    decode (encode kept ++ rest) =
      (readAll (encode kept).length (segments rest)).map fun cs => kept ++ String.ofList cs := by
  rw [decode, segments, segmentsFrom_encode, readAll_chars, Nat.zero_add, length_encode, segments]
  cases readAll kept.utf8ByteSize (segmentsFrom none rest) <;> simp [Except.map]

/-- Bytes are those of a text, and read as this text, or have a fault, and reading reports it. -/
theorem decode_cases (bytes : List UInt8) :
    (∃ text, encode text = bytes ∧ decode bytes = .ok text) ∨
      ∃ fault, Fault.Of bytes fault ∧ decode bytes = .error fault := by
  obtain ⟨kept, rest, rfl, hrest⟩ := exists_kept bytes
  have hlongest := isLongestValid_append kept hrest
  have hdrop : (encode kept ++ rest).drop (encode kept).length = rest := List.drop_left
  have hfront := front rest
  rw [decode_append]
  generalize segments rest = ended at hfront ⊢
  cases hfront with
  | nil h => exact .inl ⟨kept, by rw [h, List.append_nil], by simp [readAll, Except.map]⟩
  | char c others h => exact absurd (h ▸ List.prefix_append ..) (hrest c)
  | broken n h hmore =>
    exact .inr ⟨_, .broken hlongest (by rwa [hdrop]) (by rwa [hdrop]), rfl⟩
  | unfinished h hbegins =>
    refine .inr ⟨_, .unfinished hlongest ?_ (by rwa [hdrop]), rfl⟩
    rw [hdrop]
    exact List.length_pos_iff.mp h.pos

theorem decode_eq_ok {bytes : List UInt8} {text : String} :
    decode bytes = .ok text ↔ encode text = bytes := by
  constructor
  · intro h
    rcases decode_cases bytes with ⟨other, hbytes, hother⟩ | ⟨fault, -, hfault⟩
    · cases h.symm.trans hother
      exact hbytes
    · cases h.symm.trans hfault
  · rintro rfl
    exact decode_encode text

end EntityBroker.Utf8
