import EntityBroker.Boundary.HostCalls
import EntityBroker.Proofs.Boundary.Crossing
import EntityBroker.Proofs.Boundary.Dictionary

/-!
# What a guarded call leaves

A guarded call works on memory that its caller lends: the error view, a place for what it tells, and
a dictionary. `calls_well_guarded`: a call that fails leaves all of it as it was but the error view,
a call that succeeds leaves the error view as it was, and nothing but the error view depends on what
that is like. Only the call that reads a text writes and fails, if the text has to be cut.
-/

namespace EntityBroker.Boundary

-- ---------------------------------------------------------------- the calls

/-- What the caller lends; what is null is `none`. -/
structure Memory where
  error : Option View
  text : Option View
  kind : Option ValueKind
  bool : Option Bool
  int : Option Int64
  float : Option Double
  dict : Option Info

namespace Memory

def withError (m : Memory) (error : Option View) : Memory := { m with error := error }

/-- A part of the memory, the error view apart. -/
structure Place (α : Type) where
  read : Memory → α
  write : Memory → α → Memory
  read_withError : ∀ m error, read (m.withError error) = read m
  write_read : ∀ m, write m (read m) = m
  write_withError : ∀ m error a, write (m.withError error) a = (write m a).withError error

namespace Place

def text : Place (Option View) :=
  ⟨Memory.text, fun m a => { m with text := a }, fun _ _ => rfl, fun _ => rfl, fun _ _ _ => rfl⟩

def kind : Place (Option ValueKind) :=
  ⟨Memory.kind, fun m a => { m with kind := a }, fun _ _ => rfl, fun _ => rfl, fun _ _ _ => rfl⟩

def bool : Place (Option Bool) :=
  ⟨Memory.bool, fun m a => { m with bool := a }, fun _ _ => rfl, fun _ => rfl, fun _ _ _ => rfl⟩

def int : Place (Option Int64) :=
  ⟨Memory.int, fun m a => { m with int := a }, fun _ _ => rfl, fun _ => rfl, fun _ _ _ => rfl⟩

def float : Place (Option Double) :=
  ⟨Memory.float, fun m a => { m with float := a }, fun _ _ => rfl, fun _ => rfl, fun _ _ _ => rfl⟩

def dict : Place (Option Info) :=
  ⟨Memory.dict, fun m a => { m with dict := a }, fun _ _ => rfl, fun _ => rfl, fun _ _ _ => rfl⟩

/-- The code of a call that writes to a place, and the memory after it. -/
def call {α : Type} (place : Place α) (f : Option View → α → Call α) (m : Memory) : Int × Memory :=
  let done := f m.error (place.read m)
  (done.code, (place.write m done.out).withError done.error)

end Place

end Memory

open Memory (Place)

/-- What a manager is asked that it answers with a text. -/
inductive TextQuestion
  | identifier
  | displayName

variable {σ : Type}

def TextQuestion.ofSuite (suite : Suite σ) :
    TextQuestion → Option View → Option View → Option σ → Call (Option View)
  | .identifier => suite.identifier
  | .displayName => suite.displayName

def TextQuestion.ofHost :
    TextQuestion → Option View → Option View → Option (Broker σ × σ) → Call (Option View)
  | .identifier => hostIdentifier
  | .displayName => hostDisplayName

/-- The calls that are guarded, with what is passed to them besides memory. -/
inductive GuardedCall (σ : Type)
  | suiteText (question : TextQuestion) (m : Manager σ) (handle : Option σ)
  | suiteInfo (m : Manager σ) (handle : Option σ)
  | hostText (question : TextQuestion) (broker : Option (Broker σ × σ))
  | hostInfo (broker : Option (Broker σ × σ))
  | put (given : Dictionary.Given) (key : Text)
  | typeOf (key : Text)
  | getBool (key : Text)
  | getInt (key : Text)
  | getFloat (key : Text)
  | getText (key : Text)

namespace GuardedCall

def run (call : GuardedCall σ) (m : Memory) : Int × Memory :=
  match call with
  | .suiteText question manager handle =>
    Place.text.call (question.ofSuite (Suite.ofManager manager) · · handle) m
  | .suiteInfo manager handle => Place.dict.call ((Suite.ofManager manager).info · · handle) m
  | .hostText question broker => Place.text.call (question.ofHost · · broker) m
  | .hostInfo broker => Place.dict.call (Boundary.hostInfo · · broker) m
  | .put given key => Place.dict.call (Dictionary.put given · · key) m
  | .typeOf key => Place.kind.call (Dictionary.typeOf · · m.dict key) m
  | .getBool key => Place.bool.call (Dictionary.getBool · · m.dict key) m
  | .getInt key => Place.int.call (Dictionary.getInt · · m.dict key) m
  | .getFloat key => Place.float.call (Dictionary.getFloat · · m.dict key) m
  | .getText key => Place.text.call (Dictionary.getText · · m.dict key) m

/-- A call that asks a manager for a dictionary, with what the manager answers. -/
inductive AsksInfo : GuardedCall σ → Option (Answer Info) → Prop
  | suite (m : Manager σ) (handle : Option σ) : AsksInfo (.suiteInfo m handle) (handle.map m.info)
  | host (broker : Option (Broker σ × σ)) :
      AsksInfo (.hostInfo broker) (broker.map fun (b, state) => b.manager.info state)

/-- A text was read that has no room: as many of its bytes as there is room for were written. -/
inductive CutsText : GuardedCall σ → Memory → Int → Memory → Prop
  | cut {m : Memory} {key : Text} {dict : Info} {text : String} {out filled : View}
      {error : Option View} (hdict : m.dict = some dict)
      (htext : dict.get? key.decoded = some (.text text)) (hout : m.text = some out)
      (hroom : out.room < text.utf8ByteSize)
      (hfilled : View.Written out ((Utf8.encode text).take out.room) filled) :
      CutsText (.getText key) m 4 ({ m with text := some filled }.withError error)

structure WellGuarded (call : GuardedCall σ) (m : Memory) : Prop where
  /-- A call that fails changes the error view only, or cuts a text. -/
  failure : ∀ code after, call.run m = (code, after) → code ≠ 0 →
    after = m.withError after.error ∨ CutsText call m code after
  /-- A call that succeeds leaves the error view alone. -/
  success : ∀ after, call.run m = (0, after) → after.error = m.error
  /-- A manager's dictionary takes the place of what the dictionary held. -/
  info : ∀ answer after, AsksInfo call answer → call.run m = (0, after) →
    ∃ info, answer = some (.ok info) ∧ after.dict = some info
  /-- With another error view the call comes to the same, but for that view. -/
  blind : ∀ error, ∃ said,
    call.run (m.withError error) = ((call.run m).1, (call.run m).2.withError said)

end GuardedCall

-- ---------------------------------------------------------------- how a guarded call ends

section
variable {α : Type}

/-- How a call ends, whatever the error view: it succeeds without a word, or it fails and leaves
what it would have written to as it was before. -/
inductive Ending (call : Option View → Call α) (before : α) : Prop
  | success (out : α) (h : ∀ error, call error = ⟨0, error, out⟩)
  | failure (code : Int) (text : String) (hcode : code ≠ 0)
      (h : ∀ error, call error = ⟨code, error.map (·.assignText text), before⟩)

theorem raw_crossing_ne_zero (e : Error) : (crossing e).1.raw ≠ 0 := by
  have hcode := crossing_ne_ok e
  generalize (crossing e).1 = code at hcode ⊢
  cases code with
  | ok => exact absurd rfl hcode
  | _ => decide

theorem ending_guard (before : α) (answer : Answer α) : Ending (guard · before answer) before := by
  cases answer with
  | ok out => exact .success out fun _ => rfl
  | error e => exact .failure _ _ (raw_crossing_ne_zero e) fun _ => rfl
  | crash => exact .failure 1 crashText (by decide) fun _ => rfl

theorem ending_guardText (out : Option View) (answer : Answer String) :
    Ending (guardText · out answer) out := by
  cases answer with
  | ok text =>
    cases out with
    | none => exact ending_guard none (.error (isNull "out"))
    | some view => exact ending_guard (some view) (.ok _)
  | error e => exact ending_guard out (.error e)
  | crash => exact ending_guard out .crash

theorem ending_guardInfo (out : Option Info) (answer : Answer Info) :
    Ending (guardInfo · out answer) out := by
  cases answer with
  | ok info =>
    cases out with
    | none => exact ending_guard none (.error (isNull "out"))
    | some dict => exact ending_guard (some dict) (.ok _)
  | error e => exact ending_guard out (.error e)
  | crash => exact ending_guard out .crash

theorem guardInfo_success {error : Option View} {out : Option Info} {answer : Answer Info}
    (h : (guardInfo error out answer).code = 0) :
    ∃ info, answer = .ok info ∧ (guardInfo error out answer).out = some info := by
  cases answer with
  | ok info =>
    cases out with
    | none => exact absurd h (raw_crossing_ne_zero (isNull "out"))
    | some dict => exact ⟨info, rfl, rfl⟩
  | error e => exact absurd h (raw_crossing_ne_zero e)
  | crash => cases h

theorem map_of_ask {name : String} {handle : Option σ} {question : σ → Answer α} {a : α}
    (h : ask name handle question = .ok a) : handle.map question = some (.ok a) := by
  cases handle with
  | none => cases h
  | some state => exact congrArg some h

end

namespace Dictionary

theorem ending_put (given : Given) (dict : Option Info) (key : Text) :
    Ending (put given · dict key) dict := by
  cases given <;> exact ending_guard dict _

theorem ending_get {α : Type} (extract : Value → Option α) (out : Option α) (dict : Option Info)
    (key : Text) : Ending (get extract · out dict key) out :=
  ending_guard out _

theorem find_eq_ok {α : Type} {dict : Option Info} {key : Text} {extract : Value → Option α} {a : α}
    (h : find dict key extract = .ok a) :
    ∃ held value, dict = some held ∧ held.get? key.decoded = some value ∧
      extract value = some a := by
  cases dict with
  | none => cases h
  | some held =>
    cases hvalue : held.get? key.decoded with
    | none => simp [find, hvalue] at h
    | some value =>
      cases ha : extract value with
      | none => simp [find, hvalue, ha] at h
      | some b =>
        simp only [find, hvalue, ha, Except.ok.injEq] at h
        exact ⟨held, value, rfl, hvalue, h ▸ ha⟩

theorem eq_text_of_asText? {value : Value} {text : String} (h : value.asText? = some text) :
    value = .text text := by
  cases value <;> cases h
  rfl

/-- A call that reads a text ends like the others, or it cuts the text. -/
theorem ending_getText (out : Option View) (dict : Option Info) (key : Text) :
    Ending (getText · out dict key) out ∨
      ∃ held text view filled, dict = some held ∧ held.get? key.decoded = some (.text text) ∧
        out = some view ∧ view.room < text.utf8ByteSize ∧
        View.Written view ((Utf8.encode text).take view.room) filled ∧
        ∀ error, getText error out dict key =
          ⟨4, error.map (·.assignText "Insufficient storage for return value"), some filled⟩ := by
  cases hfind : find dict key Value.asText? with
  | error e =>
    simp only [getText, hfind]
    exact .inl (ending_guard out (.error e))
  | ok text =>
    obtain ⟨held, value, hdict, hvalue, htext⟩ := find_eq_ok hfind
    rw [eq_text_of_asText? htext] at hvalue
    cases out with
    | none =>
      simp only [getText, hfind]
      exact .inl (ending_guard none (.error (isNull "out")))
    | some view =>
      by_cases hfits : view.fits (Utf8.encode text) = true
      · simp only [getText, hfind, hfits, if_true]
        exact .inl (.success _ fun _ => rfl)
      · have hroom := mt View.fits_iff.mpr hfits
        rw [Nat.not_le, Utf8.length_encode] at hroom
        simp only [getText, hfind, if_neg hfits]
        exact .inr ⟨held, text, view, _, hdict, hvalue, rfl, hroom, view.written_assign _,
          fun _ => rfl⟩

end Dictionary

-- ---------------------------------------------------------------- every call

namespace GuardedCall

/-- How a call comes out, whatever the error view: with one code, and with one memory but for what
it tells in that view. -/
structure Outcome (call : GuardedCall σ) (m : Memory) (code : Int) (after : Memory)
    (tell : Option View → Option View) : Prop where
  run : ∀ error, call.run (m.withError error) = (code, after.withError (tell error))
  silent : code = 0 → tell = id
  kept : code ≠ 0 → after = m ∨ ∀ error, CutsText call m code (after.withError error)

theorem outcome_of_ending {α : Type} {call : GuardedCall σ} {m : Memory} (place : Place α)
    (f : Option View → α → Call α)
    (hrun : ∀ error, call.run (m.withError error) = place.call f (m.withError error))
    (h : Ending (f · (place.read m)) (place.read m)) :
    ∃ code after tell, call.Outcome m code after tell := by
  cases h with
  | success a h =>
    refine ⟨0, place.write m a, id, fun error => ?_, fun _ => rfl, absurd rfl⟩
    rw [hrun]
    simp only [Place.call, place.read_withError, h]
    rw [place.write_withError]
    rfl
  | failure code text hcode h =>
    refine ⟨code, m, Option.map (·.assignText text), fun error => ?_,
      fun hzero => absurd hzero hcode, fun _ => .inl rfl⟩
    rw [hrun]
    simp only [Place.call, place.read_withError, h]
    rw [place.write_withError, place.write_read]
    rfl

theorem exists_outcome (call : GuardedCall σ) (m : Memory) :
    ∃ code after tell, call.Outcome m code after tell := by
  cases call with
  | suiteText question manager handle =>
    refine outcome_of_ending Place.text (question.ofSuite (Suite.ofManager manager) · · handle)
      (fun _ => rfl) ?_
    cases question <;> exact ending_guardText m.text _
  | suiteInfo manager handle =>
    exact outcome_of_ending Place.dict ((Suite.ofManager manager).info · · handle) (fun _ => rfl)
      (ending_guardInfo m.dict _)
  | hostText question broker =>
    refine outcome_of_ending Place.text (question.ofHost · · broker) (fun _ => rfl) ?_
    cases question <;> exact ending_guardText m.text _
  | hostInfo broker =>
    exact outcome_of_ending Place.dict (Boundary.hostInfo · · broker) (fun _ => rfl)
      (ending_guardInfo m.dict _)
  | put given key =>
    exact outcome_of_ending Place.dict (Dictionary.put given · · key) (fun _ => rfl)
      (Dictionary.ending_put given m.dict key)
  | typeOf key =>
    exact outcome_of_ending Place.kind (Dictionary.typeOf · · m.dict key) (fun _ => rfl)
      (Dictionary.ending_get _ m.kind m.dict key)
  | getBool key =>
    exact outcome_of_ending Place.bool (Dictionary.getBool · · m.dict key) (fun _ => rfl)
      (Dictionary.ending_get _ m.bool m.dict key)
  | getInt key =>
    exact outcome_of_ending Place.int (Dictionary.getInt · · m.dict key) (fun _ => rfl)
      (Dictionary.ending_get _ m.int m.dict key)
  | getFloat key =>
    exact outcome_of_ending Place.float (Dictionary.getFloat · · m.dict key) (fun _ => rfl)
      (Dictionary.ending_get _ m.float m.dict key)
  | getText key =>
    rcases Dictionary.ending_getText m.text m.dict key with
      h | ⟨held, text, view, filled, hdict, htext, hout, hroom, hfilled, h⟩
    · exact outcome_of_ending Place.text (Dictionary.getText · · m.dict key) (fun _ => rfl) h
    · refine ⟨4, { m with text := some filled },
        Option.map (·.assignText "Insufficient storage for return value"), fun error => ?_, nofun,
        fun _ => .inr fun _ => .cut hdict htext hout hroom hfilled⟩
      exact congrArg (fun done : Call (Option View) =>
        (done.code, ({ m with text := done.out } : Memory).withError done.error)) (h error)

theorem info_of_guardInfo {answer : Answer Info} {m after : Memory}
    (h : Place.dict.call (guardInfo · · answer) m = (0, after)) :
    ∃ info, answer = .ok info ∧ after.dict = some info := by
  obtain ⟨info, hanswer, hout⟩ := guardInfo_success (congrArg Prod.fst h)
  have hdict := congrArg (fun result => result.2.dict) h
  exact ⟨info, hanswer, hdict.symm.trans hout⟩

theorem info_of_success {call : GuardedCall σ} {m after : Memory} {answer : Option (Answer Info)}
    (hasks : AsksInfo call answer) (h : call.run m = (0, after)) :
    ∃ info, answer = some (.ok info) ∧ after.dict = some info := by
  cases hasks with
  | suite manager handle =>
    obtain ⟨info, hask, hdict⟩ := info_of_guardInfo h
    exact ⟨info, map_of_ask hask, hdict⟩
  | host broker =>
    obtain ⟨info, hask, hdict⟩ := info_of_guardInfo h
    exact ⟨info, map_of_ask hask, hdict⟩

/-- Every guarded call, whatever memory it is lent, either fails and leaves everything but the error
view as it was, or cuts a text that it read, or succeeds and leaves the error view as it was. What a
manager tells takes the place of all that a dictionary held. The code, and all of the memory but the
error view, are the same for every error view. -/
theorem calls_well_guarded (call : GuardedCall σ) (m : Memory) : WellGuarded call m := by
  obtain ⟨code, after, tell, h⟩ := exists_outcome call m
  have hrun : call.run m = (code, after.withError (tell m.error)) := h.run m.error
  constructor
  case failure =>
    intro _ _ hafter hcode
    cases hafter.symm.trans hrun
    rcases h.kept hcode with rfl | hcut
    · exact .inl rfl
    · exact .inr (hcut _)
  case success =>
    intro _ hafter
    cases hafter.symm.trans hrun
    exact congrFun (h.silent rfl) m.error
  case info => exact fun _ _ hasks hafter => info_of_success hasks hafter
  case blind =>
    intro error
    rw [hrun, h.run error]
    exact ⟨tell error, rfl⟩

end GuardedCall

end EntityBroker.Boundary
