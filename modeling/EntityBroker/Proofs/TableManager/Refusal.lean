import EntityBroker.Proofs.Manager.Run
import EntityBroker.Proofs.TableManager.Settings

/-!
# Settings that are refused

`faultsOf` lists what is wrong with settings, in the order in which they are read.
`applySettings_all_or_nothing`: in every state that a run reaches, settings are refused for the
first fault of their own and for no other reason. What is merged below them never matters, as
settings that were accepted have no fault; and settings that are refused change nothing.
-/

namespace EntityBroker.TableManager

-- ---------------------------------------------------------------- what is wrong with settings

/-- The settings that have to be text, in the order in which they are read. -/
def textKeys : List String := ["prefix", "capabilities", "read_policy", "read_traits"]

/-- The names between the commas of a text; the empty text has none. -/
def namesIn (text : String) : List String :=
  if text = "" then [] else (splitOn ',' text.toList).map String.ofList

/-- The names that no capability has. -/
def unknownNames (names : List String) : List String :=
  names.filter fun name => name ∉ Capability.all.map Capability.name

def faultsIn (key : String) : Value → List SettingFault
  | .text text =>
    if key = "capabilities" then (unknownNames (namesIn text)).map .unknownCapability else []
  | _ => [.notText key]

def faultsAt (settings : Info) (key : String) : List SettingFault :=
  (settings.get? key).elim [] (faultsIn key)

def faultsOf (settings : Info) : List SettingFault := textKeys.flatMap (faultsAt settings)

/-- The value, unless there was a fault on the way to it: then the first one. -/
def orFirst {ε α : Type} (faults : List ε) (value : α) : Except ε α :=
  match faults with
  | [] => .ok value
  | fault :: _ => .error fault

theorem orFirst_bind {ε α β : Type} {faults others : List ε} {a : α} {b : β}
    {f : α → Except ε β} (h : f a = orFirst others b) :
    orFirst faults a >>= f = orFirst (faults ++ others) b := by
  cases faults with
  | nil => exact h
  | cons fault rest => rfl

theorem orFirst_map {ε α β : Type} (faults : List ε) (a : α) (f : α → β) :
    f <$> orFirst faults a = orFirst faults (f a) := by
  cases faults <;> rfl

-- ---------------------------------------------------------------- reading settings

def textAt (settings : Info) (key : String) : Option String :=
  (settings.get? key).bind Value.asText?

def directivesOf (settings : Info) : Directives where
  referencePrefix := textAt settings "prefix"
  capabilities :=
    (textAt settings "capabilities").map fun text => (namesIn text).filterMap Capability.ofName?
  readPolicy := textAt settings "read_policy"
  table := textAt settings "read_traits"

theorem textSetting_eq_orFirst {key : String} (hkey : key ≠ "capabilities") (settings : Info) :
    textSetting settings key = orFirst (faultsAt settings key) (textAt settings key) := by
  cases h : settings.get? key with
  | none => simp [textSetting, faultsAt, textAt, orFirst, h]
  | some value =>
    cases value <;>
      simp [textSetting, faultsAt, faultsIn, textAt, orFirst, Value.asText?, h, hkey]

theorem ofName?_eq_none_iff {name : String} :
    Capability.ofName? name = none ↔ name ∉ Capability.all.map Capability.name := by
  simp [Capability.ofName?]

theorem capabilitiesOfNames_eq_orFirst (names : List String) :
    capabilitiesOfNames names =
      orFirst ((unknownNames names).map .unknownCapability)
        (names.filterMap Capability.ofName?) := by
  induction names with
  | nil => rfl
  | cons name rest ih =>
    rw [capabilitiesOfNames]
    cases h : Capability.ofName? name with
    | none =>
      have hname := ofName?_eq_none_iff.mp h
      simp only [unknownNames, List.filter_cons, hname, not_false_eq_true, decide_true, ↓reduceIte,
        List.map_cons, orFirst]
    | some capability =>
      have hname : ¬ name ∉ Capability.all.map Capability.name := by
        rw [← ofName?_eq_none_iff, h]
        simp
      have hunknown : unknownNames (name :: rest) = unknownNames rest := by
        simp only [unknownNames, List.filter_cons, hname, decide_false, Bool.false_eq_true,
          ↓reduceIte]
      rw [hunknown, List.filterMap_cons_some h, ih]
      exact orFirst_map _ _ _

theorem parseCapabilities_eq_orFirst (text : String) :
    parseCapabilities text =
      orFirst ((unknownNames (namesIn text)).map .unknownCapability)
        ((namesIn text).filterMap Capability.ofName?) := by
  by_cases h : text = ""
  · subst h
    rfl
  · rw [parseCapabilities, namesIn, if_neg h, if_neg h, capabilitiesOfNames_eq_orFirst]

/-- The capabilities are read in two steps, first as text and then name by name. -/
theorem capabilities_bind {β : Type} (settings : Info)
    (rest : Option (List Capability) → Except SettingFault β) :
    (textSetting settings "capabilities" >>= fun
      | none => pure none >>= rest
      | some text => (some <$> parseCapabilities text) >>= rest) =
      orFirst (faultsAt settings "capabilities") (directivesOf settings).capabilities >>= rest := by
  cases h : settings.get? "capabilities" with
  | none =>
    simp only [textSetting, faultsAt, textAt, directivesOf, h, Option.elim_none, Option.bind_none,
      Option.map_none]
    rfl
  | some value =>
    cases value with
    | text text =>
      simp only [textSetting, faultsAt, faultsIn, textAt, directivesOf, h, Value.asText?,
        Option.elim_some, Option.bind_some, Option.map_some, ↓reduceIte]
      rw [← orFirst_map, ← parseCapabilities_eq_orFirst]
      rfl
    | _ =>
      simp only [textSetting, faultsAt, faultsIn, h, Option.elim_some]
      rfl

theorem readSettings_eq_orFirst (settings : Info) :
    readSettings settings = orFirst (faultsOf settings) (directivesOf settings) := by
  rw [readSettings, textSetting_eq_orFirst (by decide)]
  refine orFirst_bind ?_
  refine (capabilities_bind settings _).trans (orFirst_bind ?_)
  rw [textSetting_eq_orFirst (by decide)]
  refine orFirst_bind ?_
  rw [textSetting_eq_orFirst (by decide)]
  exact orFirst_bind rfl

theorem applySettings_faulty {state : State} {settings : Info} {fault : SettingFault}
    {others : List SettingFault}
    (h : faultsOf (state.settings.merge settings) = fault :: others) (session : Session) :
    applySettings settings session state = ⟨state, [], .error fault.toError⟩ := by
  refine applySettings_of_error ?_ session
  rw [readSettings_eq_orFirst, h]
  rfl

theorem applySettings_faultless {state : State} {settings : Info}
    (h : faultsOf (state.settings.merge settings) = []) (session : Session) :
    (applySettings settings session state).state =
        state.follow (state.settings.merge settings)
          (directivesOf (state.settings.merge settings)) ∧
      (applySettings settings session state).result = .ok () := by
  refine applySettings_of_ok ?_ session
  rw [readSettings_eq_orFirst, h]
  rfl

-- ---------------------------------------------------------------- what was accepted before

/-- Merging settings over others without a fault brings in no fault and hides none. -/
theorem faultsAt_merge {old : Info} {key : String} (h : faultsAt old key = []) (new : Info) :
    faultsAt (old.merge new) key = faultsAt new key := by
  unfold faultsAt
  rw [Dict.get?_merge]
  cases hnew : new.get? key with
  | some value => rfl
  | none => simpa [faultsAt] using h

theorem faultsOf_eq_nil {settings : Info} :
    faultsOf settings = [] ↔ ∀ key ∈ textKeys, faultsAt settings key = [] :=
  List.flatMap_eq_nil_iff

theorem faultsOf_merge {old : Info} (h : faultsOf old = []) (new : Info) :
    faultsOf (old.merge new) = faultsOf new := by
  rw [faultsOf, faultsOf, List.flatMap_def, List.flatMap_def, List.map_congr_left]
  exact fun key hkey => faultsAt_merge (faultsOf_eq_nil.mp h key hkey) new

theorem settings_batch {op : Operation} (request : Request op) (state : State) :
    (batch op request state).state.settings = state.settings := by
  unfold batch
  split
  · cases request <;> rfl
  · rfl

theorem faultsOf_after {state : State} (h : faultsOf state.settings = []) (call : Manager.Call) :
    faultsOf (manager.after state call).settings = [] := by
  cases call with
  | applySettings settings session =>
    cases hmerged : faultsOf (state.settings.merge settings) with
    | nil =>
      have hstate : manager.after state (.applySettings settings session) =
          state.follow (state.settings.merge settings)
            (directivesOf (state.settings.merge settings)) :=
        (applySettings_faultless hmerged session).1
      rw [hstate]
      exact hmerged
    | cons fault others =>
      have hstate : manager.after state (.applySettings settings session) = state :=
        congrArg Reply.state (applySettings_faulty hmerged session)
      rw [hstate]
      exact h
  | batch op request context session =>
    have hsettings : (manager.after state (.batch op request context session)).settings =
        state.settings := settings_batch request state
    rw [hsettings]
    exact h
  | _ => exact h

/-- The settings of every state that a run reaches are without a fault. -/
theorem faultsOf_run {state : State} (h : faultsOf state.settings = [])
    (calls : List Manager.Call) : faultsOf (manager.run state calls).settings = [] := by
  induction calls generalizing state with
  | nil => exact h
  | cons call rest ih => exact ih (faultsOf_after h call)

-- ---------------------------------------------------------------- one call

theorem unknownNames_ne_nil {names : List String} :
    unknownNames names ≠ [] ↔ ∃ name ∈ names, ∀ c : Capability, c.name ≠ name := by
  simp [unknownNames, Capability.mem_all]

/-- A setting is at fault if it is not text, or if it names a capability that there is not. -/
theorem faultsAt_ne_nil {settings : Info} {key : String} :
    faultsAt settings key ≠ [] ↔
      (∃ value, settings.get? key = some value ∧ value.asText? = none) ∨
        key = "capabilities" ∧ ∃ text, settings.get? key = some (.text text) ∧
          ∃ name ∈ namesIn text, ∀ c : Capability, c.name ≠ name := by
  cases h : settings.get? key with
  | none => simp [faultsAt, h]
  | some value =>
    cases value with
    | text text => simp [faultsAt, faultsIn, h, Value.asText?, ← unknownNames_ne_nil]
    | _ => simp [faultsAt, faultsIn, h, Value.asText?]

theorem faultsOf_ne_nil {settings : Info} :
    faultsOf settings ≠ [] ↔
      (∃ key ∈ textKeys, ∃ value, settings.get? key = some value ∧ value.asText? = none) ∨
        ∃ text, settings.get? "capabilities" = some (.text text) ∧
          ∃ name ∈ namesIn text, ∀ c : Capability, c.name ≠ name := by
  have hany : faultsOf settings ≠ [] ↔ ∃ key ∈ textKeys, faultsAt settings key ≠ [] := by
    simp [faultsOf]
  rw [hany]
  simp only [faultsAt_ne_nil]
  constructor
  · rintro ⟨key, hkey, htype | ⟨rfl, hnames⟩⟩
    · exact .inl ⟨key, hkey, htype⟩
    · exact .inr hnames
  · rintro (⟨key, hkey, htype⟩ | hnames)
    · exact ⟨key, hkey, .inl htype⟩
    · exact ⟨"capabilities", by decide, .inr ⟨rfl, hnames⟩⟩

theorem map_name_of_known {names : List String} (h : unknownNames names = []) :
    (names.filterMap Capability.ofName?).map Capability.name = names := by
  induction names with
  | nil => rfl
  | cons name rest ih =>
    have hknown : ∀ other ∈ name :: rest, other ∈ Capability.all.map Capability.name := by
      simpa [unknownNames] using h
    have hrest : unknownNames rest = [] := by
      simpa [unknownNames] using fun other hother => hknown other (List.mem_cons_of_mem _ hother)
    cases hname : Capability.ofName? name with
    | none => exact absurd (hknown name (List.mem_cons_self ..)) (ofName?_eq_none_iff.mp hname)
    | some capability =>
      rw [List.filterMap_cons_some hname, List.map_cons, Capability.name_of_ofName? hname,
        ih hrest]

/-- A state follows settings that were applied before it: it has them merged over the others, and
does what each of them says. -/
structure Follows (before : State) (settings : Info) (after : State) : Prop where
  merged : after.settings = before.settings.merge settings
  referencePrefix : ∀ text, settings.get? "prefix" = some (.text text) →
    after.referencePrefix = text
  capabilities : ∀ text, settings.get? "capabilities" = some (.text text) →
    after.capabilities.map Capability.name = namesIn text
  readPolicy : ∀ text, settings.get? "read_policy" = some (.text text) → after.readPolicy = text
  table : ∀ text, settings.get? "read_traits" = some (.text text) →
    after.entities = before.entities.applyAll (writesOfTable text)

theorem textAt_merge {old new : Info} {key text : String} (h : new.get? key = some (.text text)) :
    textAt (old.merge new) key = some text := by
  rw [textAt, Dict.get?_merge, h]
  rfl

theorem Follows.of_faultless {settings : Info} (h : faultsOf settings = []) (before : State) :
    Follows before settings (before.follow (before.settings.merge settings)
      (directivesOf (before.settings.merge settings))) where
  merged := rfl
  referencePrefix text htext := by simp [State.follow, directivesOf, textAt_merge htext]
  capabilities text htext := by
    have hat := faultsOf_eq_nil.mp h "capabilities" (by decide)
    have hknown : unknownNames (namesIn text) = [] := by
      simpa [faultsAt, faultsIn, htext] using hat
    simp [State.follow, directivesOf, textAt_merge htext, map_name_of_known hknown]
  readPolicy text htext := by simp [State.follow, directivesOf, textAt_merge htext]
  table text htext := by simp [State.follow, directivesOf, textAt_merge htext]

/-- Applying settings does all or nothing, and it depends on the settings alone which of the two,
whatever happened before. Settings are refused if one of the four that have to be text is not, or if
a capability is named that there is not; the error is the one for the first such fault, and what is
refused leaves no trace in the state or in the log. Settings without a fault are all followed. -/
theorem applySettings_all_or_nothing (calls : List Manager.Call) (settings : Info)
    (session : Session) :
    let before := manager.run State.initial calls
    let reply := manager.applySettings settings session before
    (reply.result = match faultsOf settings with
      | [] => .ok ()
      | .notText key :: _ =>
        .error (.configuration s!"SimpleManager: setting '{key}' must be a string")
      | .unknownCapability name :: _ =>
        .error (.configuration s!"SimpleManager: unsupported capability: {name}")) ∧
    ((∃ e, reply.result = .error e) ↔
      (∃ key ∈ textKeys, ∃ value, settings.get? key = some value ∧ value.asText? = none) ∨
        ∃ text, settings.get? "capabilities" = some (.text text) ∧
          ∃ name ∈ namesIn text, ∀ c : Capability, c.name ≠ name) ∧
    (∀ e, reply.result = .error e →
      e.kind = .configuration ∧ reply.state = before ∧ reply.logs = []) ∧
    (reply.result = .ok () → Follows before settings reply.state) := by
  intro before reply
  have hmerged : faultsOf (before.settings.merge settings) = faultsOf settings :=
    faultsOf_merge (faultsOf_run rfl calls) settings
  rw [← faultsOf_ne_nil]
  cases hfaults : faultsOf settings with
  | nil =>
    obtain ⟨hstate, hresult⟩ := applySettings_faultless (hmerged.trans hfaults) session
    have hreply : reply.result = .ok () := hresult
    have hfollows : Follows before settings reply.state := hstate ▸ Follows.of_faultless hfaults _
    simp [hreply, hfollows]
  | cons fault others =>
    have hreply : reply = ⟨before, [], .error fault.toError⟩ :=
      applySettings_faulty (hmerged.trans hfaults) session
    have hkind : fault.toError.kind = .configuration := by cases fault <;> rfl
    rw [hreply]
    refine ⟨by cases fault <;> rfl, by simp, ?_, by simp⟩
    rintro e he
    cases he
    exact ⟨hkind, rfl, rfl⟩

example : faultsOf (Dict.ofList [("capabilities", .text "resolution,,x"), ("prefix", .bool true)]) =
    [.notText "prefix", .unknownCapability "", .unknownCapability "x"] := by decide

end EntityBroker.TableManager
