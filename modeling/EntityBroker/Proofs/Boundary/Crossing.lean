import EntityBroker.Boundary.Suite
import EntityBroker.Proofs.Utf8.Cut

/-!
# What is seen of a manager over the boundary

A manager's answers cross the boundary as bytes in a view of limited room and as a code with a text.
`crossed_answers` says what comes out of that on the other side, for every answer. A text that has
no room is cut, and nothing tells the other side, so a shortened text can pass for the manager's
own: `crossed_texts_faithful_iff` says when.
-/

namespace EntityBroker.Boundary

open Utf8 (IsBoundary ShownWithin)

-- ---------------------------------------------------------------- what may be seen

/-- The error as which the failure of an answer is seen. Three kinds of error keep their kind and
cross with their bare message, the others cross as exceptions with their full text. -/
inductive FailureSeen {α : Type} : Answer α → Error → Prop
  | ownKind (e : Error) (number : Int) (shown : String)
      (hkind : (e.kind, number) ∈
        [(ErrorKind.outOfRange, 3), (.lengthError, 4), (.badVariantAccess, 5)])
      (hshown : ShownWithin 500 (e.message.getD "") shown) :
      FailureSeen (.error e) (.make e.kind (s!"{number}: " ++ shown))
  | exception (e : Error) (shown : String)
      (hkind : e.kind ∉ [.outOfRange, .lengthError, .badVariantAccess])
      (hshown : ShownWithin 500 e.shown shown) :
      FailureSeen (.error e) (.make .exception ("2: " ++ shown))
  | crash : FailureSeen .crash (.make .unknown "1: Unknown non-exception object thrown")

/-- What is seen of the answer to a question for a text. -/
inductive TextSeen (operation : String) : Answer String → Answer String → Prop
  | whole (text : String) (hsize : text.utf8ByteSize ≤ 500) :
      TextSeen operation (.ok text) (.ok text)
  | shortened (kept rest : String) (hkept : kept.utf8ByteSize = 500) (hrest : rest ≠ "") :
      TextSeen operation (.ok (kept ++ rest)) (.ok kept)
  | invalid (text : String) (n : Nat) (hsize : 500 < text.utf8ByteSize)
      (hcut : ¬ IsBoundary text 500) (hn : IsBoundary text n) (hlt : n < 500)
      (hlast : ∀ m, n < m → m < 500 → ¬ IsBoundary text m) :
      TextSeen operation (.ok text) (.error
        ((Error.make .exception s!"{operation}: manager returned invalid UTF-8").withCause
          s!"incomplete utf-8 byte sequence from index {n}"))
  | failure (answer : Answer String) (e : Error) (h : FailureSeen answer e) :
      TextSeen operation answer (.error e)

/-- What is seen of the answer to a question for a dictionary. -/
inductive InfoSeen : Answer Info → Answer Info → Prop
  | whole (info : Info) : InfoSeen (.ok info) (.ok info)
  | failure (answer : Answer Info) (e : Error) (h : FailureSeen answer e) :
      InfoSeen answer (.error e)

-- ---------------------------------------------------------------- views and codes

theorem capacity_blankView : Suite.blankView.capacity = 500 := List.length_replicate

theorem bytes_assignText_blankView (text : String) :
    (Suite.blankView.assignText text).bytes = (Utf8.encode text).take 500 := by
  have hmemory : Suite.blankView.memory = some (List.replicate Suite.roomForText 0) := rfl
  rw [View.assignText, View.bytes_assign hmemory, capacity_blankView]

theorem text_assignText_blankView (text : String) :
    (Suite.blankView.assignText text).text = Utf8.decodeLossy ((Utf8.encode text).take 500) := by
  rw [View.text, bytes_assignText_blankView]

theorem Code.ofRaw?_raw (code : Code) : Code.ofRaw? code.raw = some code := by
  cases code <;> rfl

/-- The error that a code and the text in a blank view make. -/
def errorTold (code : Code) (text : String) : Error :=
  .make code.errorKind (s!"{code.raw}: " ++ Utf8.decodeLossy ((Utf8.encode text).take 500))

theorem throwIfError_told {code : Code} (h : code ≠ .ok) (text : String) :
    throwIfError code.raw (Suite.blankView.assignText text) = .error (errorTold code text) := by
  have hraw : code.raw ≠ Code.ok.raw := by
    cases code with
    | ok => exact absurd rfl h
    | _ => decide
  rw [throwIfError, if_neg hraw, errorOfCode, Code.ofRaw?_raw, text_assignText_blankView]
  rfl

theorem Code.ofKind?_eq_some {kind : ErrorKind} {code : Code} (h : Code.ofKind? kind = some code) :
    code.errorKind = kind ∧
      (kind, code.raw) ∈
        [(ErrorKind.outOfRange, 3), (.lengthError, 4), (.badVariantAccess, 5)] := by
  cases kind <;> cases h <;> decide

theorem Code.ofKind?_eq_none {kind : ErrorKind} (h : Code.ofKind? kind = none) :
    kind ∉ [.outOfRange, .lengthError, .badVariantAccess] := by
  cases kind with
  | outOfRange => cases h
  | lengthError => cases h
  | badVariantAccess => cases h
  | _ => decide

theorem failureSeen_error {α : Type} (e : Error) :
    FailureSeen (.error e : Answer α) (errorTold (crossing e).1 (crossing e).2) := by
  cases hcode : Code.ofKind? e.kind with
  | none =>
    have hcrossing : crossing e = (.exception, e.shown) := by rw [crossing, hcode]
    rw [hcrossing]
    exact .exception e _ (Code.ofKind?_eq_none hcode) (Utf8.shownWithin_take 500 e.shown)
  | some code =>
    have hcrossing : crossing e = (code, e.message.getD "") := by rw [crossing, hcode]
    obtain ⟨hkind, hnumber⟩ := Code.ofKind?_eq_some hcode
    rw [hcrossing, errorTold, hkind]
    exact .ownKind e code.raw _ hnumber (Utf8.shownWithin_take 500 (e.message.getD ""))

theorem failureSeen_crash {α : Type} :
    FailureSeen (.crash : Answer α) (errorTold .unknown crashText) := by
  have hbytes : (Utf8.encode crashText).take 500 = Utf8.encode crashText := by
    refine List.take_of_length_le ?_
    rw [Utf8.length_encode]
    decide
  rw [errorTold, hbytes, Utf8.decodeLossy_encode]
  exact .crash

-- ---------------------------------------------------------------- one question

theorem crossing_ne_ok (e : Error) : (crossing e).1 ≠ .ok := by
  unfold crossing
  cases hcode : Code.ofKind? e.kind with
  | none => exact nofun
  | some code =>
    rintro rfl
    exact absurd (Code.ofKind?_eq_some hcode).2 (by simp [Code.raw])

section
variable {σ : Type} (name : String) (handle : σ)

/-- What a manager's answer to a question for a text comes to on the other side. -/
theorem askText_guardText (operation : String) (question : σ → Answer String) :
    Suite.askText operation
        (fun error out handle => guardText error out (ask name handle question)) handle =
      match question handle with
      | .ok text =>
        (Utf8.decode ((Utf8.encode text).take 500)).mapError (Suite.invalidText operation)
      | .error e => .error (errorTold (crossing e).1 (crossing e).2)
      | .crash => .error (errorTold .unknown crashText) := by
  cases h : question handle with
  | ok text =>
    simp only [Suite.askText, ask, h, guardText, guard, throwIfError, ↓reduceIte, Option.getD_some,
      bytes_assignText_blankView]
  | error e =>
    simp only [Suite.askText, ask, h, guardText, guard, Option.map_some, Option.getD_some,
      throwIfError_told (crossing_ne_ok e)]
  | crash =>
    have hcode : Code.unknown ≠ .ok := by decide
    simp only [Suite.askText, ask, h, guardText, guard, Option.map_some, Option.getD_some,
      throwIfError_told hcode]

theorem askInfo_guardInfo (question : σ → Answer Info) :
    Suite.askInfo (fun error out handle => guardInfo error out (ask name handle question)) handle =
      match question handle with
      | .ok info => .ok info
      | .error e => .error (errorTold (crossing e).1 (crossing e).2)
      | .crash => .error (errorTold .unknown crashText) := by
  cases h : question handle with
  | ok info =>
    simp only [Suite.askInfo, ask, h, guardInfo, guard, throwIfError, ↓reduceIte, Option.getD_some]
  | error e =>
    simp only [Suite.askInfo, ask, h, guardInfo, guard, Option.map_some, Option.getD_some,
      throwIfError_told (crossing_ne_ok e)]
  | crash =>
    have hcode : Code.unknown ≠ .ok := by decide
    simp only [Suite.askInfo, ask, h, guardInfo, guard, Option.map_some, Option.getD_some,
      throwIfError_told hcode]

end

theorem textSeen_ok (operation text : String) :
    TextSeen operation (.ok text) (.ofExcept
      ((Utf8.decode ((Utf8.encode text).take 500)).mapError (Suite.invalidText operation))) := by
  have h := Utf8.cutReading_take 500 text
  generalize Utf8.decode ((Utf8.encode text).take 500) = decoded at h ⊢
  generalize Utf8.decodeLossy ((Utf8.encode text).take 500) = shown at h
  cases h with
  | between _ h hsize =>
    obtain ⟨rest, rfl⟩ := h.beginning
    by_cases hrest : rest = ""
    · subst hrest
      rw [String.append_empty] at hsize ⊢
      exact .whole shown (by omega)
    · have hpos : rest.utf8ByteSize ≠ 0 := by rwa [ne_eq, String.utf8ByteSize_eq_zero_iff]
      rw [String.utf8ByteSize_append] at hsize
      exact .shortened shown rest (by omega) hrest
  | inside kept h hroom hlt =>
    obtain ⟨rest, htext⟩ := h.beginning
    refine .invalid text _ hroom (h.not_isBoundary hlt) ⟨kept, rest, htext, rfl⟩ hlt ?_
    rintro m hm hm' ⟨other, rest, hother, rfl⟩
    exact Nat.not_le_of_lt hm (h.longest other rest hother (Nat.le_of_lt hm'))

theorem textSeen_askText {σ : Type} (operation name : String) (question : σ → Answer String)
    (handle : σ) :
    TextSeen operation (question handle) (.ofExcept (Suite.askText operation
      (fun error out handle => guardText error out (ask name handle question)) handle)) := by
  rw [askText_guardText]
  cases question handle with
  | ok text => exact textSeen_ok operation text
  | error e => exact .failure _ _ (failureSeen_error e)
  | crash => exact .failure _ _ failureSeen_crash

theorem infoSeen_askInfo {σ : Type} (name : String) (question : σ → Answer Info) (handle : σ) :
    InfoSeen (question handle) (.ofExcept (Suite.askInfo
      (fun error out handle => guardInfo error out (ask name handle question)) handle)) := by
  rw [askInfo_guardInfo]
  cases question handle with
  | ok info => exact .whole info
  | error e => exact .failure _ _ (failureSeen_error e)
  | crash => exact .failure _ _ failureSeen_crash

/-- What is seen over the boundary of all that a manager tells about itself. A text of at most 500
bytes is seen whole. A longer one is seen as its first 500 bytes if these end between characters,
else as an error that says where the character begins that was cut. An error or a crash is seen as
an error of the kind that its code stands for; after the code comes as much of the text as fits in
500 bytes, with a mark if a character was cut. A dictionary is seen whole. -/
theorem crossed_answers {σ : Type} (m : Manager σ) (state : σ) :
    TextSeen "identifier" (m.identifier state) ((crossed m).identifier state) ∧
      TextSeen "displayName" (m.displayName state) ((crossed m).displayName state) ∧
      InfoSeen (m.info state) ((crossed m).info state) :=
  ⟨textSeen_askText .., textSeen_askText .., infoSeen_askInfo ..⟩

-- ---------------------------------------------------------------- texts that pass for others

/-- No text is seen as another one. -/
def Faithful (answer seen : Answer String) : Prop :=
  ∀ text shown, answer = .ok text → seen = .ok shown → shown = text

/-- A text is not seen as another one exactly if it has room, or is cut inside a character. -/
theorem TextSeen.faithful_iff {operation : String} {answer seen : Answer String}
    (h : TextSeen operation answer seen) :
    Faithful answer seen ↔
      ∀ text, answer = .ok text → text.utf8ByteSize ≤ 500 ∨ ¬ IsBoundary text 500 := by
  cases h with
  | whole text hsize =>
    constructor
    · rintro - text ⟨⟩
      exact .inl hsize
    · rintro - text shown ⟨⟩ ⟨⟩
      rfl
  | shortened kept rest hkept hrest =>
    have hpos : rest.utf8ByteSize ≠ 0 := by rwa [ne_eq, String.utf8ByteSize_eq_zero_iff]
    have hsize : (kept ++ rest).utf8ByteSize = 500 + rest.utf8ByteSize := by
      rw [String.utf8ByteSize_append, hkept]
    constructor
    · intro hfaithful
      have hsame := congrArg String.utf8ByteSize (hfaithful _ _ rfl rfl)
      omega
    · intro hroom
      rcases hroom _ rfl with hroom | hcut
      · omega
      · exact absurd ⟨kept, rest, rfl, hkept⟩ hcut
  | invalid text n hsize hcut hn hlt hlast =>
    constructor
    · rintro - text ⟨⟩
      exact .inr hcut
    · exact fun _ _ _ _ => nofun
  | failure _ e h =>
    constructor
    · rintro - text rfl
      cases h
    · exact fun _ _ _ _ => nofun

theorem identifier_shortened {σ : Type} {m : Manager σ} {state : σ} {kept rest : String}
    (h : m.identifier state = .ok (kept ++ rest)) (hkept : kept.utf8ByteSize = 500) :
    (crossed m).identifier state = .ok kept := by
  have hbytes : (Utf8.encode (kept ++ rest)).take 500 = Utf8.encode kept := by
    rw [← hkept, Utf8.take_encode_between]
  have hseen := askText_guardText Suite.managerHandle state "identifier" m.identifier
  rw [h] at hseen
  simp only [hbytes, Utf8.decode_encode] at hseen
  exact congrArg Answer.ofExcept hseen

def letters (n : Nat) : String := String.ofList (List.replicate n 'a')

theorem letters_add (n k : Nat) : letters (n + k) = letters n ++ letters k := by
  rw [letters, ← List.replicate_append_replicate, String.ofList_append, letters, letters]

theorem utf8ByteSize_letters (n : Nat) : (letters n).utf8ByteSize = n := by
  induction n with
  | zero => rfl
  | succ n ih =>
    have hone : (letters 1).utf8ByteSize = 1 := rfl
    rw [letters_add, String.utf8ByteSize_append, ih, hone]

/-- Over the boundary a manager's own text can be taken for another one, its first 500 bytes:
exactly if it is longer and these end between characters. -/
theorem crossed_texts_faithful_iff {σ : Type} (m : Manager σ) (state : σ) :
    (Faithful (m.identifier state) ((crossed m).identifier state) ↔
        ∀ text, m.identifier state = .ok text →
          text.utf8ByteSize ≤ 500 ∨ ¬ IsBoundary text 500) ∧
      (Faithful (m.displayName state) ((crossed m).displayName state) ↔
        ∀ text, m.displayName state = .ok text →
          text.utf8ByteSize ≤ 500 ∨ ¬ IsBoundary text 500) :=
  ⟨(textSeen_askText ..).faithful_iff, (textSeen_askText ..).faithful_iff⟩

/-- An identifier of 501 letters is seen as one of 500. -/
theorem long_identifier_not_faithful :
    let m : Manager Unit := .unsupported (letters 501) "Long"
    m.identifier () = .ok (letters 501) ∧ (crossed m).identifier () = .ok (letters 500) ∧
      ¬ Faithful (m.identifier ()) ((crossed m).identifier ()) := by
  intro m
  have hself : m.identifier () = .ok (letters 500 ++ letters 1) := by
    rw [← letters_add]
    rfl
  have hseen := identifier_shortened hself (utf8ByteSize_letters 500)
  refine ⟨rfl, hseen, fun hfaithful => ?_⟩
  have hsize := congrArg String.utf8ByteSize (hfaithful _ _ rfl hseen)
  rw [utf8ByteSize_letters, utf8ByteSize_letters] at hsize
  cases hsize

end EntityBroker.Boundary
