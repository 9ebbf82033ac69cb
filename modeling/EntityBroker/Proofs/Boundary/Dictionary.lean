import Mathlib.Data.List.Induction
import EntityBroker.Boundary.Dictionary
import EntityBroker.Proofs.Utf8.Decode

/-!
# What a dictionary tells after any calls

The other side makes a dictionary, puts values under keys and reads them back. `told_after_calls`
says what it is told at every moment: of a key, the value last put under a key that spells the same
name, by the one call that reads its type, and how many such names there are. What bytes spell is
said by `Utf8.ShownLossily`. A text is read into a view, which may have too little room for it.
-/

namespace EntityBroker.Boundary

namespace View

/-- How many bytes can be written. -/
def room (v : View) : Nat := if v.memory.isSome then v.capacity else 0

theorem fits_iff {v : View} {bytes : List UInt8} : v.fits bytes = true ↔ bytes.length ≤ v.room := by
  cases h : v.memory <;> simp [fits, room, h]

/-- Bytes were written into a view, and nothing else of it changed. -/
structure Written (before : View) (written : List UInt8) (after : View) : Prop where
  bytes : after.bytes = written
  size : after.size = written.length
  capacity : after.capacity = before.capacity
  rest : after.memory.map (·.drop written.length) = before.memory.map (·.drop written.length)

theorem written_assign (v : View) (bytes : List UInt8) :
    Written v (bytes.take v.room) (v.assign bytes) := by
  cases h : v.memory with
  | none => constructor <;> simp [assign, View.bytes, room, h]
  | some memory =>
    have hroom : v.room = v.capacity := by simp [room, h]
    rw [hroom]
    refine ⟨bytes_assign h bytes, ?_, ?_, ?_⟩ <;> simp [assign, h]

end View

namespace Dictionary

open View (Written)

-- ---------------------------------------------------------------- the calls that are made

/-- The bytes are shown as this text. -/
def Spells (t : Text) (text : String) : Prop := Utf8.ShownLossily t.bytes text.toList

/-- A value as it is passed, a text as bytes. -/
inductive Given
  | bool (b : Bool)
  | int (n : Int64)
  | float (x : Double)
  | text (t : Text)

/-- The value is the one that was passed. -/
inductive Given.Means : Given → Value → Prop
  | bool (b : Bool) : Means (.bool b) (.bool b)
  | int (n : Int64) : Means (.int n) (.int n)
  | float (x : Double) : Means (.float x) (.float x)
  | text {t : Text} {s : String} (h : Spells t s) : Means (.text t) (.text s)

def put (given : Given) (error : Option View) (dict : Option Info) (key : Text) :
    Call (Option Info) :=
  match given with
  | .bool b => set (.bool b) error dict key
  | .int n => set (.int n) error dict key
  | .float x => set (.float x) error dict key
  | .text t => setText t error dict key

/-- A call on a dictionary: it puts a value, or it reads and gives no dictionary back. -/
inductive Use
  | put (given : Given) (error : Option View) (key : Text)
  | read

namespace Use

def after (dict : Option Info) : Use → Option Info
  | .put given error key => (Dictionary.put given error dict key).out
  | .read => dict

/-- The call puts a value under a key that spells the name. -/
def PutsUnder (name : String) : Use → Prop
  | .put _ _ key => Spells key name
  | .read => False

end Use

def afterAll (dict : Option Info) (uses : List Use) : Option Info := uses.foldl Use.after dict

/-- What the calls last put under a name: nothing, or a value after which none was put under it. -/
inductive LastPut (name : String) : List Use → Option Value → Prop
  | never {uses : List Use} (h : ∀ use ∈ uses, ¬ use.PutsUnder name) : LastPut name uses none
  | last {before after : List Use} {given : Given} {error : Option View} {key : Text}
      {value : Value} (hkey : Spells key name) (hvalue : given.Means value)
      (h : ∀ use ∈ after, ¬ use.PutsUnder name) :
      LastPut name (before ++ .put given error key :: after) (some value)

-- ---------------------------------------------------------------- what they tell

/-- What comes of reading a key as one type. -/
inductive Finding (α : Type)
  | found (value : α)
  | noKey
  | otherType

section
variable {α β : Type}

/-- The call fails: it leaves a code and says why, and what it would write to is as before. -/
def Refuses (read : Option View → Option β → Call (Option β)) (code : Int) (reason : String) :
    Prop :=
  ∀ error out, read error (some out) = ⟨code, error.map (·.assignText reason), some out⟩

/-- How a call tells what it found, if `Gives` says how it gives a value. -/
def Tells (Gives : α → Option View → β → Call (Option β) → Prop)
    (read : Option View → Option β → Call (Option β)) : Finding α → Prop
  | .found value => ∀ error out, Gives value error out (read error (some out))
  | .noKey => Refuses read 3 "Invalid key"
  | .otherType => Refuses read 5 "Invalid value type"

def GivesValue (value : α) (error : Option View) (_out : α) (call : Call (Option α)) : Prop :=
  call = ⟨0, error, some value⟩

end

/-- The text is written to a view. If it does not fit, as many of its bytes are written as there is
room for, and the call fails. -/
inductive GivesText (text : String) (error : Option View) (out : View) :
    Call (Option View) → Prop
  | whole (filled : View) (hroom : text.utf8ByteSize ≤ out.room)
      (h : Written out (Utf8.encode text) filled)
      (htext : Utf8.ShownLossily filled.bytes text.toList) :
      GivesText text error out ⟨0, error, some filled⟩
  | cut (filled : View) (hroom : out.room < text.utf8ByteSize)
      (h : Written out ((Utf8.encode text).take out.room) filled) :
      GivesText text error out
        ⟨4, error.map (·.assignText "Insufficient storage for return value"), some filled⟩

/-- What each of the calls that read a key finds. -/
structure Reading (dict : Option Info) (key : Text) (kind : Finding ValueKind)
    (bool : Finding Bool) (int : Finding Int64) (float : Finding Double) (text : Finding String) :
    Prop where
  kind : Tells GivesValue (typeOf · · dict key) kind
  bool : Tells GivesValue (getBool · · dict key) bool
  int : Tells GivesValue (getInt · · dict key) int
  float : Tells GivesValue (getFloat · · dict key) float
  text : Tells GivesText (getText · · dict key) text

/-- What the calls find of a key that holds a value, or none. The call for its type finds the value,
the others find that it has another type. -/
def Reads (dict : Option Info) (key : Text) : Option Value → Prop
  | none => Reading dict key .noKey .noKey .noKey .noKey .noKey
  | some (.bool b) =>
    Reading dict key (.found .bool) (.found b) .otherType .otherType .otherType
  | some (.int n) =>
    Reading dict key (.found .int) .otherType (.found n) .otherType .otherType
  | some (.float x) =>
    Reading dict key (.found .float) .otherType .otherType (.found x) .otherType
  | some (.text s) =>
    Reading dict key (.found .text) .otherType .otherType .otherType (.found s)

/-- What is told of a dictionary on which calls were made. -/
structure Told (uses : List Use) (dict : Option Info) : Prop where
  put : ∀ given error key, ∃ next, put given error dict key = ⟨0, error, some next⟩
  reads : ∀ key, ∃ name held, Spells key name ∧ LastPut name uses held ∧ Reads dict key held
  size : ∃ names : List String, names.Nodup ∧
    (∀ name, name ∈ names ↔ ∃ use ∈ uses, use.PutsUnder name) ∧ size dict = names.length

-- ---------------------------------------------------------------- what bytes spell

theorem spells_iff {t : Text} {text : String} : Spells t text ↔ text = t.decoded := by
  rw [Spells, Utf8.shownLossily_iff, String.ofList_toList, Text.decoded]

/-- Bytes spell one text, whatever they are. -/
theorem spells_decoded (t : Text) : Spells t t.decoded := spells_iff.mpr rfl

def Given.value : Given → Value
  | .bool b => .bool b
  | .int n => .int n
  | .float x => .float x
  | .text t => .text t.decoded

theorem Given.means_value (given : Given) : given.Means given.value := by
  cases given with
  | text t => exact .text (spells_decoded t)
  | _ => constructor

-- ---------------------------------------------------------------- one call

section
variable {α : Type} {dict : Info} {key : Text} {held : Option Value}

def finding (extract : Value → Option α) : Option Value → Finding α
  | none => .noKey
  | some value => (extract value).elim .otherType .found

theorem find_eq (h : dict.get? key.decoded = held) (extract : Value → Option α) :
    find (some dict) key extract =
      match finding extract held with
      | .found value => .ok value
      | .noKey => .error invalidKey
      | .otherType => .error invalidType := by
  subst h
  cases hheld : dict.get? key.decoded with
  | none => simp only [find, hheld, finding]
  | some value => cases hvalue : extract value <;> simp [find, hheld, finding, hvalue]

theorem tells_get (h : dict.get? key.decoded = held) (extract : Value → Option α) :
    Tells GivesValue (get extract · · (some dict) key) (finding extract held) := by
  have hfind := find_eq h extract
  generalize finding extract held = result at hfind ⊢
  -- whatever `find` answers, the call ends with it
  cases result <;> intro error out <;> simp only [get, hfind] <;> rfl

theorem givesText_assign (text : String) (error : Option View) (out : View) :
    GivesText text error out
      (guard error (some (out.assign (Utf8.encode text)))
        (if out.fits (Utf8.encode text) then .ok (some (out.assign (Utf8.encode text)))
          else .error insufficientStorage)) := by
  have hwritten := out.written_assign (Utf8.encode text)
  have hlength := Utf8.length_encode text
  by_cases hfits : out.fits (Utf8.encode text) = true
  · have hroom := View.fits_iff.mp hfits
    rw [List.take_of_length_le hroom] at hwritten
    rw [if_pos hfits]
    refine .whole _ (hlength ▸ hroom) hwritten ?_
    rw [hwritten.bytes, Utf8.shownLossily_iff, String.ofList_toList, Utf8.decodeLossy_encode]
  · have hroom := mt View.fits_iff.mpr hfits
    rw [if_neg hfits]
    exact .cut _ (hlength ▸ Nat.lt_of_not_le hroom) hwritten

theorem tells_getText (h : dict.get? key.decoded = held) :
    Tells GivesText (getText · · (some dict) key) (finding Value.asText? held) := by
  have hfind := find_eq h Value.asText?
  generalize finding Value.asText? held = result at hfind ⊢
  cases result with
  | found text =>
    intro error out
    simp only [getText, hfind]
    exact givesText_assign text error out
  | noKey =>
    intro error out
    simp only [getText, hfind]
    rfl
  | otherType =>
    intro error out
    simp only [getText, hfind]
    rfl

theorem reads_of_get? (h : dict.get? key.decoded = held) : Reads (some dict) key held := by
  have kind := tells_get h fun value => some value.kind
  have bool := tells_get h Value.asBool?
  have int := tells_get h Value.asInt?
  have float := tells_get h Value.asFloat?
  have text := tells_getText h
  cases held with
  | none => exact ⟨kind, bool, int, float, text⟩
  | some value => cases value <;> exact ⟨kind, bool, int, float, text⟩

end

theorem put_eq (given : Given) (error : Option View) (dict : Info) (key : Text) :
    put given error (some dict) key = ⟨0, error, some (dict.insert key.decoded given.value)⟩ := by
  cases given <;> rfl

-- ---------------------------------------------------------------- all calls

/-- What a call makes of a dictionary that is there. -/
def Use.onto (dict : Info) : Use → Info
  | .put given _ key => dict.insert key.decoded given.value
  | .read => dict

theorem afterAll_some (dict : Info) (uses : List Use) :
    afterAll (some dict) uses = some (uses.foldl Use.onto dict) := by
  induction uses generalizing dict with
  | nil => rfl
  | cons use rest ih =>
    cases use with
    | put given error key =>
      rw [afterAll, List.foldl_cons, Use.after, put_eq]
      exact ih _
    | read => exact ih dict

section
variable {name : String} {uses : List Use} {held : Option Value}

/-- A call that puts nothing under a name leaves what was last put there. -/
theorem LastPut.append {use : Use} (h : LastPut name uses held) (huse : ¬ use.PutsUnder name) :
    LastPut name (uses ++ [use]) held := by
  cases h with
  | never h =>
    refine .never fun other hother => ?_
    rcases List.mem_append.mp hother with hbefore | hlast
    · exact h other hbefore
    · exact List.mem_singleton.mp hlast ▸ huse
  | @last before after _ _ _ _ hkey hvalue h =>
    rw [List.append_assoc, List.cons_append]
    refine .last hkey hvalue fun other hother => ?_
    rcases List.mem_append.mp hother with hafter | hlast
    · exact h other hafter
    · exact List.mem_singleton.mp hlast ▸ huse

/-- Something was put under a name exactly if a call put something there. -/
theorem LastPut.isSome_iff (h : LastPut name uses held) :
    held.isSome = true ↔ ∃ use ∈ uses, use.PutsUnder name := by
  cases h with
  | never h => simpa using h
  | @last before after given error key value hkey hvalue h =>
    exact iff_of_true rfl ⟨.put given error key, by simp, hkey⟩

end

/-- A dictionary holds under a name what was last put there. -/
theorem lastPut_get? (uses : List Use) (name : String) :
    LastPut name uses ((uses.foldl Use.onto Dict.empty).get? name) := by
  induction uses using List.reverseRecOn with
  | nil => exact .never (by simp)
  | append_singleton before use ih =>
    rw [List.foldl_append, List.foldl_cons, List.foldl_nil]
    cases use with
    | read => exact ih.append id
    | put given error key =>
      rw [Use.onto, Dict.get?_insert]
      by_cases hname : name = key.decoded
      · rw [if_pos hname]
        exact .last (spells_iff.mpr hname) given.means_value (by simp)
      · rw [if_neg hname]
        exact ih.append (mt spells_iff.mp hname)

/-- After any calls on a new dictionary, every put succeeds, every key is read as what was last put
under a key that spells the same name, and the size counts the names under which something was put.
-/
theorem told_after_calls (error : Option View) (uses : List Use) :
    (create error true).code = 0 ∧ Told uses (afterAll (create error true).out uses) := by
  have hafter : afterAll (create error true).out uses = some (uses.foldl Use.onto Dict.empty) :=
    afterAll_some Dict.empty uses
  rw [hafter]
  refine ⟨rfl, ?_, fun key => ?_, ?_⟩
  · exact fun given error key => ⟨_, put_eq given error _ key⟩
  · exact ⟨key.decoded, _, spells_decoded key, lastPut_get? uses key.decoded, reads_of_get? rfl⟩
  · refine ⟨_, Dict.keys_nodup (uses.foldl Use.onto Dict.empty), fun name => ?_, ?_⟩
    · rw [Dict.mem_keys]
      exact (lastPut_get? uses name).isSome_iff
    · exact (Dict.length_keys _).symm

/-- Two bytes that begin no character spell the same name, so the key is one, and its type changes.
-/
example :
    let uses := [.put (.int 7) none (.ofBytes [0xFF]), .put (.bool true) none (.ofBytes [0xFE])]
    let dict := afterAll (some Dict.empty) uses
    getBool none (some false) dict (.ofBytes [0xFD]) = ⟨0, none, some true⟩ ∧ size dict = 1 :=
  ⟨rfl, by decide⟩

end Dictionary

end EntityBroker.Boundary
