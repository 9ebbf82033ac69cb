import EntityBroker.Proofs.Boundary.Guarded
import EntityBroker.Proofs.Utf8.Decode

/-!
# What is heard from a foreign suite

A suite that is not this library's own may leave anything in the buffers that it is lent, with any
sizes, and end with any code. `text_heard`: what a manager behind it answers to a question for a
text is told by the code and the bytes in use alone. A text is taken only as it is; what is said
about a failure is shown as well as it can be.
-/

namespace EntityBroker.Boundary

open Utf8 (ShownLossily)

variable {σ : Type} {operation : String} {question : TextQuestion} {code : Int}

-- ---------------------------------------------------------------- what the other side leaves

/-- A buffer that was lent with a view, as the other side leaves it. -/
structure Buffer where
  memory : List UInt8
  size : Nat
  whole : memory.length = Suite.roomForText

namespace Buffer

/-- The other side does not move a view: it is over the same memory, and has the same room. -/
def view (b : Buffer) : View := ⟨Suite.roomForText, some b.memory, b.size⟩

/-- The bytes that the other side tells are in use, as far as there are any. -/
def inUse (b : Buffer) : List UInt8 := b.memory.take (min b.size 500)

end Buffer

/-- What a suite is asked, as the manager behind it is asked. -/
def TextQuestion.ofManager (m : Manager σ) : TextQuestion → σ → Answer String
  | .identifier => m.identifier
  | .displayName => m.displayName

def TextQuestion.name : TextQuestion → String
  | .identifier => "identifier"
  | .displayName => "displayName"

-- ---------------------------------------------------------------- what is heard of it

/-- The kinds of error that codes stand for; all other codes are unknown errors. -/
def kindHeard (code : Int) : ErrorKind :=
  ([(1, .unknown), (2, .exception), (3, .outOfRange), (4, .lengthError),
    (5, .badVariantAccess)].lookup code).getD .unknown

/-- What is answered after a call that left a code, and bytes in use for an error and for a text. -/
structure TextHeard (operation : String) (code : Int) (error out : List UInt8)
    (answer : Answer String) : Prop where
  ok_iff : (∃ text, answer = .ok text) ↔ code = 0 ∧ ∃ text, Utf8.encode text = out
  text (text : String) (h : answer = .ok text) : Utf8.encode text = out
  invalid (hcode : code = 0) (hout : ¬ ∃ text, Utf8.encode text = out) :
    ∃ fault : Utf8.Fault, fault.Of out ∧
      answer = .error ((Error.make .exception
        s!"{operation}: manager returned invalid UTF-8").withCause fault.message)
  failed (hcode : code ≠ 0) : ∃ shown, ShownLossily error shown ∧
    answer = .error (.make (kindHeard code) (s!"{code}: " ++ String.ofList shown))

-- ---------------------------------------------------------------- errors

theorem ofRaw?_eq_none (h : code ∉ [0, 1, 2, 3, 4, 5]) : Code.ofRaw? code = none := by
  refine List.find?_eq_none.mpr fun c _ hc => h ?_
  rw [← eq_of_beq hc]
  cases c <;> decide

theorem kindHeard_eq (h : code ≠ 0) :
    ((Code.ofRaw? code).map Code.errorKind).getD .unknown = kindHeard code := by
  by_cases hknown : code ∈ [1, 2, 3, 4, 5]
  · simp only [List.mem_cons, List.not_mem_nil, or_false] at hknown
    rcases hknown with rfl | rfl | rfl | rfl | rfl <;> rfl
  · have hlookup : ∀ kinds : List (Int × ErrorKind), (∀ k ∈ kinds, k.1 ∈ [1, 2, 3, 4, 5]) →
        kinds.lookup code = none := by
      intro kinds hkinds
      refine List.lookup_eq_none_iff.mpr fun k hk => bne_iff_ne.mpr fun hcode => hknown ?_
      exact hcode ▸ hkinds k hk
    rw [ofRaw?_eq_none (List.not_mem_cons_of_ne_of_not_mem h hknown), kindHeard,
      hlookup _ (by decide)]
    rfl

theorem throwIfError_heard (h : code ≠ 0) (error : Buffer) :
    ∃ shown, ShownLossily error.inUse shown ∧ throwIfError code error.view =
      .error (.make (kindHeard code) (s!"{code}: " ++ String.ofList shown)) := by
  have htext : error.view.text = Utf8.decodeLossy error.inUse := rfl
  refine ⟨_, Utf8.shownLossily_iff.mpr (String.ofList_toList ..), ?_⟩
  have hraw : code ≠ Code.ok.raw := h
  rw [throwIfError, if_neg hraw, errorOfCode, kindHeard_eq h, htext, String.ofList_toList]

-- ---------------------------------------------------------------- one question

theorem textHeard_of_failed (h : code ≠ 0) {error out : List UInt8} {shown : List Char}
    (hshown : ShownLossily error shown) :
    TextHeard operation code error out
      (.error (.make (kindHeard code) (s!"{code}: " ++ String.ofList shown))) where
  ok_iff := ⟨nofun, fun hok => absurd hok.1 h⟩
  text _ := nofun
  invalid hcode := absurd hcode h
  failed _ := ⟨shown, hshown, rfl⟩

theorem textHeard_of_ok (operation : String) (error out : List UInt8) :
    TextHeard operation 0 error out
      (.ofExcept ((Utf8.decode out).mapError (Suite.invalidText operation))) := by
  rcases Utf8.decode_cases out with ⟨text, htext, hdecode⟩ | ⟨fault, hfault, hdecode⟩
  · rw [hdecode]
    refine ⟨⟨fun _ => ⟨rfl, text, htext⟩, fun _ => ⟨text, rfl⟩⟩, ?_, ?_, nofun⟩
    · rintro _ ⟨rfl⟩
      exact htext
    · exact fun _ hout => absurd ⟨text, htext⟩ hout
  · have hout : ¬ ∃ text, Utf8.encode text = out := by
      rintro ⟨text, htext⟩
      cases hdecode.symm.trans (Utf8.decode_eq_ok.mpr htext)
    rw [hdecode]
    exact ⟨⟨nofun, fun hok => absurd hok.2 hout⟩, nofun, fun _ _ => ⟨fault, hfault, rfl⟩, nofun⟩

theorem textHeard_askText {getter : Option View → Option View → Option σ → Call (Option View)}
    {handle : σ} {error out : Buffer}
    (h : getter (some Suite.blankView) (some Suite.blankView) (some handle) =
      ⟨code, some error.view, some out.view⟩) :
    TextHeard operation code error.inUse out.inUse
      (.ofExcept (Suite.askText operation getter handle)) := by
  simp only [Suite.askText, h, Option.getD_some]
  by_cases hcode : code = 0
  · subst hcode
    exact textHeard_of_ok operation error.inUse out.inUse
  · obtain ⟨shown, hshown, hthrow⟩ := throwIfError_heard hcode error
    rw [hthrow]
    exact textHeard_of_failed hcode hshown

/-- A manager behind a suite answers with a text exactly if the call left code zero and the bytes of
a text in use, and then with this text. Of other bytes it tells where the longest text at their
front ends. A failure is told by the code and what the bytes in use for the error show. -/
theorem text_heard {suite : Suite σ} {handle : σ} {error out : Buffer}
    (h : question.ofSuite suite (some Suite.blankView) (some Suite.blankView) (some handle) =
      ⟨code, some error.view, some out.view⟩) :
    TextHeard question.name code error.inUse out.inUse
      (question.ofManager suite.manager handle) := by
  cases question with
  | identifier => exact textHeard_askText h
  | displayName => exact textHeard_askText h

/-- A suite that leaves the same whatever it is asked. -/
def Suite.leaving (code : Int) (error out : Buffer) : Suite σ where
  identifier _ _ _ := ⟨code, some error.view, some out.view⟩
  displayName _ _ _ := ⟨code, some error.view, some out.view⟩
  info _ dict _ := ⟨code, some error.view, dict⟩

def Buffer.filled (byte : UInt8) (size : Nat) : Buffer :=
  ⟨List.replicate Suite.roomForText byte, size, List.length_replicate⟩

def noisySuite : Suite Unit := Suite.leaving (-7) (.filled 0xFF 900) (.filled 0 3)

theorem noisySuite_heard :
    TextQuestion.identifier.ofSuite noisySuite (some Suite.blankView) (some Suite.blankView)
        (some ()) = ⟨-7, some (Buffer.filled 0xFF 900).view, some (Buffer.filled 0 3).view⟩ ∧
      TextHeard "identifier" (-7) (Buffer.filled 0xFF 900).inUse (Buffer.filled 0 3).inUse
        (TextQuestion.identifier.ofManager noisySuite.manager ()) :=
  have h : TextQuestion.identifier.ofSuite noisySuite (some Suite.blankView)
      (some Suite.blankView) (some ()) =
        ⟨-7, some (Buffer.filled 0xFF 900).view, some (Buffer.filled 0 3).view⟩ := rfl
  ⟨h, text_heard h⟩

end EntityBroker.Boundary
