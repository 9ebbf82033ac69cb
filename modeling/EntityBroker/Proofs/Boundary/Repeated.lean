import Mathlib.Logic.Function.Iterate
import EntityBroker.Boundary.HostCalls
import EntityBroker.Proofs.Boundary.Crossing

/-!
# Crossing the boundary again and again

A manager that crossed the boundary is a manager, and can cross it again; the host calls over it are
one more crossing. `crossed_again` says what is seen of the first manager after any number of them.
Values that come through once come through always. An error keeps the kind and the number that it
got at the first crossing, and each crossing writes the number once more in front of its message and
cuts the message to its room, so messages grow no longer than that. A crash is an unknown error only
where it is seen first.
-/

namespace EntityBroker.Boundary

variable {α σ : Type}

-- ---------------------------------------------------------------- one crossing

/-- The message of an error that has crossed: a number, and what has room of the text that was
sent. -/
def numbered (number : Int) (text : String) : String :=
  s!"{number}: " ++ Utf8.decodeLossy ((Utf8.encode text).take 500)

/-- With which kind and number an error crosses, and with which text. -/
inductive CrossesAs : Error → ErrorKind → Int → String → Prop
  | ownKind (e : Error) (number : Int)
      (hkind : (e.kind, number) ∈
        [(ErrorKind.outOfRange, 3), (.lengthError, 4), (.badVariantAccess, 5)]) :
      CrossesAs e e.kind number (e.message.getD "")
  | exception (e : Error) (hkind : e.kind ∉ [.outOfRange, .lengthError, .badVariantAccess]) :
      CrossesAs e .exception 2 e.shown

/-- What a crossing makes of an answer, given what it makes of a value. -/
def relay (pass : α → Except Error α) : Answer α → Answer α
  | .ok value => .ofExcept (pass value)
  | .error e => .error (errorTold (crossing e).1 (crossing e).2)
  | .crash => .error (errorTold .unknown crashText)

def passText (operation text : String) : Except Error String :=
  (Utf8.decode ((Utf8.encode text).take 500)).mapError (Suite.invalidText operation)

section
variable (m : Manager σ) (state : σ)

theorem identifier_crossed :
    (crossed m).identifier state = relay (passText "identifier") (m.identifier state) := by
  refine (congrArg Answer.ofExcept (askText_guardText ..)).trans ?_
  cases m.identifier state <;> rfl

theorem displayName_crossed :
    (crossed m).displayName state = relay (passText "displayName") (m.displayName state) := by
  refine (congrArg Answer.ofExcept (askText_guardText ..)).trans ?_
  cases m.displayName state <;> rfl

theorem info_crossed : (crossed m).info state = relay .ok (m.info state) := by
  refine (congrArg Answer.ofExcept (askInfo_guardInfo ..)).trans ?_
  cases m.info state <;> rfl

end

-- ---------------------------------------------------------------- many crossings

/-- What is seen of an answer after each number of crossings. -/
theorem seen_iterate (ask : Manager σ → Answer α) {pass : α → Except Error α}
    (h : ∀ m, ask (crossed m) = relay pass (ask m)) (m : Manager σ) (n : ℕ) :
    ask (crossed^[n] m) = (relay pass)^[n] (ask m) := by
  induction n with
  | zero => rfl
  | succ n ih => rw [Function.iterate_succ_apply', Function.iterate_succ_apply', h, ih]

section
variable {pass : α → Except Error α}

theorem relay_ok {value : α} (h : pass value = .ok value) (n : ℕ) :
    (relay pass)^[n] (.ok value) = .ok value := by
  refine Function.iterate_fixed ?_ n
  rw [relay, h]
  rfl

/-- An error that stands for a code crosses with that code and its own message. -/
theorem crossing_make {code : Code} (hok : code ≠ .ok) (hunknown : code ≠ .unknown)
    (message : String) : crossing (.make code.errorKind message) = (code, message) := by
  cases code with
  | ok => exact absurd rfl hok
  | unknown => exact absurd rfl hunknown
  | _ => rfl

theorem crossing_ne_unknown (e : Error) : (crossing e).1 ≠ .unknown := by
  unfold crossing
  cases hcode : Code.ofKind? e.kind with
  | none => exact nofun
  | some code =>
    rintro rfl
    exact absurd (Code.ofKind?_eq_some hcode).2 (by simp [Code.raw])

theorem crossesAs_crossing (e : Error) :
    CrossesAs e (crossing e).1.errorKind (crossing e).1.raw (crossing e).2 := by
  cases hcode : Code.ofKind? e.kind with
  | none =>
    simp only [crossing, hcode]
    exact .exception e (Code.ofKind?_eq_none hcode)
  | some code =>
    obtain ⟨hkind, hnumber⟩ := Code.ofKind?_eq_some hcode
    simp only [crossing, hcode, hkind]
    exact .ownKind e code.raw hnumber

/-- From the first crossing on only the message of an error changes. -/
theorem relay_error (e : Error) (n : ℕ) :
    (relay pass)^[n + 1] (.error e) =
      .error (.make (crossing e).1.errorKind
        ((numbered (crossing e).1.raw)^[n + 1] (crossing e).2)) := by
  induction n with
  | zero => rfl
  | succ n ih =>
    have hcrossing := crossing_make (crossing_ne_ok e) (crossing_ne_unknown e)
      ((numbered (crossing e).1.raw)^[n + 1] (crossing e).2)
    rw [Function.iterate_succ_apply', ih, Function.iterate_succ_apply' _ (n + 1), relay, hcrossing]
    rfl

-- ---------------------------------------------------------------- the room for messages

theorem utf8ByteSize_take_le (room : ℕ) (text : String) :
    (Utf8.decodeLossy ((Utf8.encode text).take room)).utf8ByteSize ≤ room + 2 := by
  have h := Utf8.cutReading_take room text
  generalize Utf8.decode ((Utf8.encode text).take room) = strict at h
  generalize Utf8.decodeLossy ((Utf8.encode text).take room) = shown at h ⊢
  cases h with
  | between _ h _ => exact Nat.le_add_right_of_le h.fits
  | inside kept h _ hlt =>
    -- a character that is cut has left room for one byte of it, the mark takes three
    have hmark : "\uFFFD".utf8ByteSize = 3 := rfl
    rw [String.utf8ByteSize_append, hmark]
    omega

theorem utf8ByteSize_numbered_le (code : Code) (text : String) :
    (numbered code.raw text).utf8ByteSize ≤ 505 := by
  have hnumber : (s!"{code.raw}: ").utf8ByteSize = 3 := by cases code <;> rfl
  have htext := utf8ByteSize_take_le 500 text
  rw [numbered, String.utf8ByteSize_append, hnumber]
  omega

/-- The message of an error that crossed, or that was made because a value did not, is short. -/
theorem utf8ByteSize_message_le
    (hpass : ∀ value e message, pass value = .error e → e.message = some message →
      message.utf8ByteSize ≤ 505) {answer : Answer α} {e : Error} {message : String}
    (h : relay pass answer = .error e) (hmessage : e.message = some message) :
    message.utf8ByteSize ≤ 505 := by
  have told : ∀ code text, Answer.error (errorTold code text) = (.error e : Answer α) →
      message.utf8ByteSize ≤ 505 := by
    rintro code text ⟨⟩
    obtain rfl := Option.some.inj hmessage
    exact utf8ByteSize_numbered_le code text
  cases answer with
  | ok value =>
    rw [relay] at h
    cases hvalue : pass value with
    | ok _ => rw [hvalue] at h; cases h
    | error _ =>
      rw [hvalue] at h
      cases h
      exact hpass value e message hvalue hmessage
  | error _ => exact told _ _ h
  | crash => exact told _ _ h

end

theorem passText_of_room {text : String} (h : text.utf8ByteSize ≤ 500) (operation : String) :
    passText operation text = .ok text := by
  rw [passText, List.take_of_length_le (by rwa [Utf8.length_encode]), Utf8.decode_encode]
  rfl

theorem utf8ByteSize_passText_le {operation : String}
    (hoperation : (s!"{operation}: manager returned invalid UTF-8").utf8ByteSize ≤ 505)
    (text : String) (e : Error) (message : String) (h : passText operation text = .error e)
    (hmessage : e.message = some message) : message.utf8ByteSize ≤ 505 := by
  unfold passText at h
  cases hdecode : Utf8.decode ((Utf8.encode text).take 500) with
  | ok _ => rw [hdecode] at h; cases h
  | error fault =>
    rw [hdecode] at h
    cases h
    obtain rfl := Option.some.inj hmessage
    exact hoperation

-- ---------------------------------------------------------------- all of it

/-- What is seen of an answer after one crossing, after two, and so on. An error is always of one
kind with one number, a crash is so from the second crossing on, and no message is ever long. -/
structure SeenAgain (answer : Answer α) (seen : ℕ → Answer α) : Prop where
  error : ∀ e, answer = .error e → ∃ kind number text, CrossesAs e kind number text ∧
    ∀ n, seen (n + 1) = .error (.make kind ((numbered number)^[n + 1] text))
  crash : answer = .crash →
    seen 1 = .error (.make .unknown "1: Unknown non-exception object thrown") ∧
    ∀ n, seen (n + 2) = .error (.make .exception
      ((numbered 2)^[n + 1] "1: Unknown non-exception object thrown"))
  bounded : ∀ n e message, seen (n + 1) = .error e → e.message = some message →
    message.utf8ByteSize ≤ 505

theorem relay_crash (pass : α → Except Error α) :
    relay pass .crash = .error (.make .unknown "1: Unknown non-exception object thrown") := by
  rw [relay, errorTold, List.take_of_length_le, Utf8.decodeLossy_encode]
  · rfl
  · rw [Utf8.length_encode]
    decide

theorem seenAgain_relay {pass : α → Except Error α} (answer : Answer α)
    (hpass : ∀ value e message, pass value = .error e → e.message = some message →
      message.utf8ByteSize ≤ 505) :
    SeenAgain answer fun n => (relay pass)^[n] answer where
  error := by
    rintro e rfl
    exact ⟨_, _, _, crossesAs_crossing e, relay_error e⟩
  crash := by
    rintro rfl
    refine ⟨relay_crash pass, fun n => ?_⟩
    rw [Function.iterate_succ_apply, relay_crash, relay_error]
    rfl
  bounded n e message h hmessage := by
    rw [Function.iterate_succ_apply'] at h
    exact utf8ByteSize_message_le hpass h hmessage

/-- The host calls over a manager, as the other side has them. -/
def hostSuite (m : Manager σ) (session : Session) : Suite σ where
  identifier := fun error out handle =>
    hostIdentifier error out (handle.map fun state => (⟨m, session⟩, state))
  displayName := fun error out handle =>
    hostDisplayName error out (handle.map fun state => (⟨m, session⟩, state))
  info := fun error out handle =>
    hostInfo error out (handle.map fun state => (⟨m, session⟩, state))

theorem hostSuite_eq (m : Manager σ) (session : Session) :
    hostSuite m session = Suite.ofManager m := by
  unfold hostSuite Suite.ofManager
  congr 1 <;> funext error out handle <;> cases handle <;> rfl

/-- What is seen of what a manager tells about itself, over as many crossings as there are. Texts of
at most 500 bytes and dictionaries come through unchanged. An error has one kind and one number, and
every crossing numbers the message of the crossing before; a crash is unknown after the first
crossing and an exception after every further one. No message takes more than 505 bytes. The host
calls over a manager that crossed are one more crossing. -/
theorem crossed_again (m : Manager σ) (state : σ) :
    SeenAgain (m.identifier state) (fun n => (crossed^[n] m).identifier state) ∧
    SeenAgain (m.displayName state) (fun n => (crossed^[n] m).displayName state) ∧
    SeenAgain (m.info state) (fun n => (crossed^[n] m).info state) ∧
    (∀ text n, text.utf8ByteSize ≤ 500 →
      (m.identifier state = .ok text → (crossed^[n] m).identifier state = .ok text) ∧
      (m.displayName state = .ok text → (crossed^[n] m).displayName state = .ok text)) ∧
    (∀ info n, m.info state = .ok info → (crossed^[n] m).info state = .ok info) ∧
    ∀ n session, (hostSuite (crossed^[n] m) session).manager = crossed^[n + 1] m := by
  have hidentifier := seen_iterate (·.identifier state) (identifier_crossed · state) m
  have hdisplayName := seen_iterate (·.displayName state) (displayName_crossed · state) m
  have hinfo := seen_iterate (·.info state) (info_crossed · state) m
  simp only [hidentifier, hdisplayName, hinfo]
  refine ⟨seenAgain_relay _ (utf8ByteSize_passText_le (by decide)),
    seenAgain_relay _ (utf8ByteSize_passText_le (by decide)), seenAgain_relay _ ?_, ?_, ?_, ?_⟩
  · rintro info e message ⟨⟩
  · intro text n htext
    constructor
    · intro h
      rw [h, relay_ok (passText_of_room htext _)]
    · intro h
      rw [h, relay_ok (passText_of_room htext _)]
  · intro info n h
    rw [h, relay_ok rfl]
  · intro n session
    rw [hostSuite_eq, Function.iterate_succ_apply']
    rfl

/-- Each crossing numbers the message once more. -/
example : (numbered 3)^[2] "no such entity" = "3: 3: no such entity" := rfl

end EntityBroker.Boundary
