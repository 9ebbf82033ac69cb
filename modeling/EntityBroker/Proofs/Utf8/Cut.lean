import EntityBroker.Proofs.Utf8.Character

/-!
# Text that is cut after some of its bytes

A text that is cut keeps its longest beginning that fits. If the cut falls between two characters
nothing else is left of it; if it falls inside one, strict decoding reports where that begins, and
lossy decoding shows one replacement character for it (`cutReading_take`). Text that is not cut
reads as itself.
-/

namespace EntityBroker.Utf8

/-- A character of the text begins at byte `n`, or the text ends there. -/
def IsBoundary (text : String) (n : Nat) : Prop :=
  ∃ before after, text = before ++ after ∧ before.utf8ByteSize = n

/-- The longest beginning of a text that takes at most `room` bytes. -/
structure IsLongestWithin (room : Nat) (text kept : String) : Prop where
  beginning : ∃ rest, text = kept ++ rest
  fits : kept.utf8ByteSize ≤ room
  longest : ∀ other rest, text = other ++ rest → other.utf8ByteSize ≤ room →
    other.utf8ByteSize ≤ kept.utf8ByteSize

/-- The longest beginning of a text within `room` bytes, and one replacement character after it if
the cut falls inside a character. -/
def ShownWithin (room : Nat) (text shown : String) : Prop :=
  ∃ kept, IsLongestWithin room text kept ∧
    (IsBoundary text (min room text.utf8ByteSize) ∧ shown = kept ∨
      ¬ IsBoundary text (min room text.utf8ByteSize) ∧ shown = kept ++ "\uFFFD")

-- ---------------------------------------------------------------- bytes of a text

/-- A text is empty, or a character in front of a text. -/
theorem text_induction {motive : String → Prop} (empty : motive "")
    (cons : ∀ c rest, motive rest → motive (String.singleton c ++ rest)) (text : String) :
    motive text := by
  rw [← String.ofList_toList (s := text)]
  induction text.toList with
  | nil => exact empty
  | cons c cs ih =>
    rw [String.ofList_cons]
    exact cons c _ ih

theorem encode_append (text rest : String) :
    encode (text ++ rest) = encode text ++ encode rest := by
  simp [encode]

theorem encode_singleton (c : Char) : encode (String.singleton c) = String.utf8EncodeChar c := by
  simp [encode]

theorem length_encode (text : String) : (encode text).length = text.utf8ByteSize := by
  induction text using text_induction with
  | empty => rfl
  | cons c rest ih =>
    rw [encode_append, encode_singleton, List.length_append, ih, String.length_utf8EncodeChar,
      String.utf8ByteSize_append, String.utf8ByteSize_singleton]

theorem append_eq_append {a b c d : String} (h : a ++ b = c ++ d) :
    (∃ m, c = a ++ m ∧ b = m ++ d) ∨ ∃ m, a = c ++ m ∧ d = m ++ b := by
  simp only [← String.toList_inj, String.toList_append] at h ⊢
  rcases List.append_eq_append_iff.mp h with ⟨m, hc, hb⟩ | ⟨m, ha, hd⟩
  · exact .inl ⟨String.ofList m, by simpa using hc, by simpa using hb⟩
  · exact .inr ⟨String.ofList m, by simpa using ha, by simpa using hd⟩

-- ---------------------------------------------------------------- where a cut falls

/-- A cut falls between characters or inside one. -/
theorem boundary_or_inside (text : String) {n : Nat} (hn : n ≤ text.utf8ByteSize) :
    IsBoundary text n ∨ ∃ before c after, text = before ++ (String.singleton c ++ after) ∧
      before.utf8ByteSize < n ∧ n < before.utf8ByteSize + c.utf8Size := by
  induction text using text_induction generalizing n with
  | empty => exact .inl ⟨"", "", rfl, (Nat.le_zero.mp hn).symm⟩
  | cons c rest ih =>
    rw [String.utf8ByteSize_append, String.utf8ByteSize_singleton] at hn
    by_cases hzero : n = 0
    · exact .inl ⟨"", _, String.empty_append.symm, hzero.symm⟩
    by_cases hinside : n < c.utf8Size
    · refine .inr ⟨"", c, rest, String.empty_append.symm, Nat.pos_of_ne_zero hzero, ?_⟩
      rwa [String.utf8ByteSize_empty, Nat.zero_add]
    -- the cut falls after the first character
    rcases @ih (n - c.utf8Size) (by omega) with ⟨before, after, rfl, hsize⟩ |
      ⟨before, d, after, rfl, hlow, hhigh⟩
    · refine .inl ⟨String.singleton c ++ before, after, String.append_assoc.symm, ?_⟩
      rw [String.utf8ByteSize_append, String.utf8ByteSize_singleton, hsize]
      omega
    · refine .inr ⟨String.singleton c ++ before, d, after, String.append_assoc.symm, ?_⟩
      rw [String.utf8ByteSize_append, String.utf8ByteSize_singleton]
      omega

namespace IsLongestWithin

theorem of_boundary {text before after : String} {room : Nat} (htext : text = before ++ after)
    (hsize : before.utf8ByteSize = min room text.utf8ByteSize) :
    IsLongestWithin room text before where
  beginning := ⟨after, htext⟩
  fits := by omega
  longest other rest hother hroom := by
    have hwhole : text.utf8ByteSize = other.utf8ByteSize + rest.utf8ByteSize := by
      rw [hother, String.utf8ByteSize_append]
    omega

theorem of_inside {before after : String} {c : Char} {room : Nat}
    (hlow : before.utf8ByteSize < room) (hhigh : room < before.utf8ByteSize + c.utf8Size) :
    IsLongestWithin room (before ++ (String.singleton c ++ after)) before where
  beginning := ⟨_, rfl⟩
  fits := Nat.le_of_lt hlow
  longest other rest hother hroom := by
    rcases append_eq_append hother with ⟨more, rfl, hmore⟩ | ⟨more, rfl, -⟩
    · -- a beginning past `before` takes all of `c` with it
      rw [String.utf8ByteSize_append] at hroom ⊢
      induction more using text_induction with
      | empty => exact Nat.le_refl _
      | cons d more _ =>
        have hc : c = d := by
          have := congrArg String.toList hmore
          simp only [String.toList_append, String.toList_singleton, List.cons_append,
            List.nil_append, List.cons.injEq] at this
          exact this.1
        rw [String.utf8ByteSize_append, String.utf8ByteSize_singleton, ← hc] at hroom
        omega
    · rw [String.utf8ByteSize_append]
      omega

theorem not_isBoundary {text kept : String} {room : Nat} (h : IsLongestWithin room text kept)
    (hlt : kept.utf8ByteSize < room) : ¬ IsBoundary text room := by
  rintro ⟨other, rest, htext, hsize⟩
  have := h.longest other rest htext (Nat.le_of_eq hsize)
  omega

end IsLongestWithin

-- ---------------------------------------------------------------- reading

theorem segmentsFrom_encode (text : String) (bytes : List UInt8) :
    segmentsFrom none (encode text ++ bytes) =
      text.toList.map .char ++ segmentsFrom none bytes := by
  induction text using text_induction with
  | empty => rfl
  | cons c rest ih =>
    rw [encode_append, encode_singleton, List.append_assoc, segmentsFrom_encodeChar, ih,
      String.toList_append, String.toList_singleton]
    rfl

theorem readAll_chars (text : String) (offset : Nat) (segments : List Segment) :
    readAll offset (text.toList.map .char ++ segments) =
      (readAll (offset + text.utf8ByteSize) segments).map (text.toList ++ ·) := by
  induction text using text_induction generalizing offset with
  | empty => cases h : readAll offset segments <;> simp [h, Except.map]
  | cons c rest ih =>
    rw [String.toList_append, String.toList_singleton, List.cons_append, List.nil_append,
      List.map_cons, List.cons_append, readAll, ih, String.utf8ByteSize_append,
      String.utf8ByteSize_singleton, Nat.add_assoc]
    cases readAll (offset + (c.utf8Size + rest.utf8ByteSize)) segments <;> rfl

theorem segments_encode (text : String) : segments (encode text) = text.toList.map .char := by
  simpa [segments, segmentsFrom] using segmentsFrom_encode text []

theorem decode_encode (text : String) : decode (encode text) = .ok text := by
  have h := readAll_chars text 0 []
  rw [List.append_nil] at h
  simp [decode, segments_encode, h, readAll, Except.map]

theorem decodeLossy_encode (text : String) : decodeLossy (encode text) = text := by
  have hshown : Segment.shown ∘ Segment.char = id := rfl
  rw [decodeLossy, segments_encode, List.map_map, hshown, List.map_id, String.ofList_toList]

section
variable {before after : String} {c : Char} {n room : Nat}

theorem take_encode_between : (encode (before ++ after)).take before.utf8ByteSize =
    encode before := by
  rw [encode_append, ← length_encode, List.take_left]

theorem take_encode_inside (hlow : before.utf8ByteSize ≤ room)
    (hhigh : room ≤ before.utf8ByteSize + c.utf8Size) :
    (encode (before ++ (String.singleton c ++ after))).take room =
      encode before ++ (String.utf8EncodeChar c).take (room - before.utf8ByteSize) := by
  rw [encode_append, encode_append, encode_singleton, List.take_append, length_encode,
    List.take_of_length_le (by rwa [length_encode]), List.take_append_of_le_length]
  rw [String.length_utf8EncodeChar]
  omega

/-- A character that is cut leaves one unfinished segment. -/
theorem segments_inside (before : String) (hpos : 0 < n) (hn : n < c.utf8Size) :
    segments (encode before ++ (String.utf8EncodeChar c).take n) =
      before.toList.map .char ++ [.unfinished n] := by
  rw [segments, segmentsFrom_encode, segmentsFrom_take_encodeChar c hpos hn]

theorem decode_inside (before : String) (hpos : 0 < n) (hn : n < c.utf8Size) :
    decode (encode before ++ (String.utf8EncodeChar c).take n) =
      .error ⟨before.utf8ByteSize, none⟩ := by
  rw [decode, segments_inside before hpos hn, readAll_chars, readAll, Nat.zero_add]
  rfl

theorem decodeLossy_inside (before : String) (hpos : 0 < n) (hn : n < c.utf8Size) :
    decodeLossy (encode before ++ (String.utf8EncodeChar c).take n) = before ++ "\uFFFD" := by
  have hshown : Segment.shown ∘ Segment.char = id := rfl
  rw [decodeLossy, segments_inside before hpos hn, List.map_append, List.map_map, hshown,
    List.map_id, String.ofList_append, String.ofList_toList]
  rfl

end

/-- How the first `room` bytes of a text are read, strictly and lossily. -/
inductive CutReading (room : Nat) (text : String) : Except Fault String → String → Prop
  | between (kept : String) (h : IsLongestWithin room text kept)
      (hsize : kept.utf8ByteSize = min room text.utf8ByteSize) :
      CutReading room text (.ok kept) kept
  | inside (kept : String) (h : IsLongestWithin room text kept)
      (hroom : room < text.utf8ByteSize) (hlt : kept.utf8ByteSize < room) :
      CutReading room text (.error ⟨kept.utf8ByteSize, none⟩) (kept ++ "\uFFFD")

theorem cutReading_take (room : Nat) (text : String) :
    CutReading room text (decode ((encode text).take room))
      (decodeLossy ((encode text).take room)) := by
  rcases boundary_or_inside text (Nat.min_le_right room text.utf8ByteSize) with
    ⟨before, after, rfl, hsize⟩ | ⟨before, c, after, rfl, hlow, hhigh⟩
  · have hbytes : (encode (before ++ after)).take room = encode before := by
      rw [List.take_eq_take_min, length_encode, ← hsize, take_encode_between]
    rw [hbytes, decode_encode, decodeLossy_encode]
    exact .between before (.of_boundary rfl hsize) hsize
  · -- there is more of `c` than fits, so it is the room that ends the bytes
    have hroom : room < (before ++ (String.singleton c ++ after)).utf8ByteSize := by
      simp only [String.utf8ByteSize_append, String.utf8ByteSize_singleton] at hhigh ⊢
      omega
    have hmin : min room (before ++ (String.singleton c ++ after)).utf8ByteSize = room :=
      Nat.min_eq_left (Nat.le_of_lt hroom)
    rw [hmin] at hlow hhigh
    rw [take_encode_inside (Nat.le_of_lt hlow) (Nat.le_of_lt hhigh),
      decode_inside before (by omega) (by omega), decodeLossy_inside before (by omega) (by omega)]
    exact .inside before (.of_inside hlow hhigh) hroom hlow

theorem shownWithin_take (room : Nat) (text : String) :
    ShownWithin room text (decodeLossy ((encode text).take room)) := by
  have h := cutReading_take room text
  generalize decode ((encode text).take room) = strict at h
  generalize decodeLossy ((encode text).take room) = shown at h ⊢
  cases h with
  | between _ h hsize =>
    obtain ⟨rest, htext⟩ := h.beginning
    exact ⟨_, h, .inl ⟨⟨_, rest, htext, hsize⟩, rfl⟩⟩
  | inside kept h hroom hlt =>
    have hmin : min room text.utf8ByteSize = room := Nat.min_eq_left (Nat.le_of_lt hroom)
    refine ⟨kept, h, .inr ⟨?_, rfl⟩⟩
    rw [hmin]
    exact h.not_isBoundary hlt

end EntityBroker.Utf8
