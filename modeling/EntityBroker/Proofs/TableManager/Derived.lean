import EntityBroker.Proofs.TableManager.Effect

/-!
# The state that settings determine

The reference prefix, the capabilities and the read policy are stored beside the settings, and each
is changed on its own. `state_follows_settings`: after any run they are still what the settings say
or, where these say nothing, what they were at first; and the settings are those of all accepted
calls, later ones going before earlier ones.
-/

namespace EntityBroker.TableManager

/-- A field that one setting determines: it is what the text of the setting reads as, or the default
as long as there is no such setting. -/
inductive FromSetting {α : Type} (settings : Info) (key : String) (default : α)
    (Reads : String → α → Prop) : α → Prop
  | absent (h : settings.get? key = none) : FromSetting settings key default Reads default
  | present {text : String} {value : α} (h : settings.get? key = some (.text text))
      (hreads : Reads text value) : FromSetting settings key default Reads value

/-- Every field beside the settings and the store is determined by the settings. -/
structure Derived (state : State) : Prop where
  referencePrefix : FromSetting state.settings "prefix" "simple://" (fun text value => text = value)
    state.referencePrefix
  capabilities : FromSetting state.settings "capabilities"
    [.entityReferenceIdentification, .managementPolicyQueries, .entityTraitIntrospection,
      .resolution]
    (fun text value => parseCapabilities text = .ok value) state.capabilities
  readPolicy : FromSetting state.settings "read_policy" "" (fun text value => text = value)
    state.readPolicy

-- ---------------------------------------------------------------- settings after settings

/-- Of the settings that were merged in, the last to have a key decide it. -/
theorem get?_mergeAll (merged : List Info) (settings : Info) (key : String) :
    (merged.foldl Dict.merge settings).get? key =
      ((merged.filterMap fun later => later.get? key).getLast?).or (settings.get? key) :=
  lookUp_foldl (fun settings : Info => settings.get? key) _
    (fun settings later => settings.get?_merge later key) merged settings

theorem Effect.settings {state next : State} {merged : List Info} {writes : List Write}
    (h : Effect state merged writes next) :
    next.settings = merged.foldl Dict.merge state.settings := by
  cases h <;> rfl

theorem settings_run (state : State) (calls : List Manager.Call) :
    (manager.run state calls).settings =
      (manager.gather applied state calls).foldl Dict.merge state.settings := by
  induction calls generalizing state with
  | nil => rfl
  | cons call rest ih =>
    rw [Manager.run_cons, ih, (effect_after state call).settings, Manager.gather,
      List.foldl_append]

-- ---------------------------------------------------------------- fields

theorem parseCapabilities_of_known {text : String} (h : unknownNames (namesIn text) = []) :
    parseCapabilities text = .ok ((namesIn text).filterMap Capability.ofName?) := by
  rw [parseCapabilities_eq_orFirst, h]
  rfl

/-- A field that is read anew from merged settings, and else left alone, stays determined by them: a
setting that was there before is still there. -/
theorem FromSetting.merge {α : Type} {settings new : Info} {key : String} {default value : α}
    {Reads : String → α → Prop} (h : FromSetting settings key default Reads value)
    (read : String → α)
    (hfaults : faultsAt (settings.merge new) key = [])
    (hread : ∀ text, faultsIn key (.text text) = [] → Reads text (read text)) :
    FromSetting (settings.merge new) key default Reads
      (((textAt (settings.merge new) key).map read).getD value) := by
  cases hmerged : (settings.merge new).get? key with
  | none =>
    -- Merging loses no key, so there was no setting before either and the default still stands.
    have hold : settings.get? key = none := by
      rw [Dict.get?_merge] at hmerged
      exact (Option.or_eq_none_iff.mp hmerged).2
    have hdefault : value = default := by
      cases h with
      | absent _ => rfl
      | present hpresent _ => rw [hold] at hpresent; cases hpresent
    simp only [textAt, hmerged, Option.bind_none, Option.map_none, Option.getD_none, hdefault]
    exact .absent hmerged
  | some stored =>
    simp only [faultsAt, hmerged, Option.elim_some] at hfaults
    cases stored with
    | text text =>
      simp only [textAt, hmerged, Value.asText?, Option.bind_some, Option.map_some,
        Option.getD_some]
      exact .present hmerged (hread text hfaults)
    | _ => cases hfaults

theorem Derived.initial : Derived State.initial := ⟨.absent rfl, .absent rfl, .absent rfl⟩

theorem Effect.derived {state next : State} {merged : List Info} {writes : List Write}
    (h : Effect state merged writes next) (hd : Derived state) : Derived next := by
  cases h with
  | followed settings hfaults =>
    have hat := faultsOf_eq_nil.mp hfaults
    constructor
    · simpa [State.follow, directivesOf] using
        hd.referencePrefix.merge id (hat "prefix" (by decide)) fun _ _ => rfl
    · refine hd.capabilities.merge _ (hat "capabilities" (by decide)) fun text htext => ?_
      exact parseCapabilities_of_known (by simpa [faultsIn] using htext)
    · simpa [State.follow, directivesOf] using
        hd.readPolicy.merge id (hat "read_policy" (by decide)) fun _ _ => rfl
  | written _ => exact ⟨hd.referencePrefix, hd.capabilities, hd.readPolicy⟩

theorem Derived.run {state : State} (h : Derived state) (calls : List Manager.Call) :
    Derived (manager.run state calls) := by
  induction calls generalizing state with
  | nil => exact h
  | cons call rest ih => exact ih ((effect_after state call).derived h)

/-- After any run from the initial state the settings are those of all accepted calls, the last to
have a key deciding it, and every field beside them is determined by them. So a text is taken for a
reference exactly if it begins with the prefix that the manager tells about itself. -/
theorem state_follows_settings (calls : List Manager.Call) :
    let state := manager.run State.initial calls
    (∀ key, state.settings.get? key =
      ((manager.gather applied State.initial calls).filterMap fun settings =>
        settings.get? key).getLast?) ∧
    Derived state ∧
    ∀ (text : String) (session : Session), ∃ info toldPrefix,
      manager.info state = .ok info ∧
      info.get? "entityReferencesMatchPrefix" = some (.text toldPrefix) ∧
      (manager.isEntityReference text session state).result =
        .ok (decide (toldPrefix.toList <+: text.toList)) := by
  intro state
  refine ⟨fun key => ?_, Derived.initial.run calls, fun text session => ?_⟩
  · have hinitial : State.initial.settings.get? key = none := rfl
    rw [settings_run, get?_mergeAll, hinitial, Option.or_none]
  · refine ⟨_, state.referencePrefix, rfl, by simp [Dict.get?_insert], ?_⟩
    have hstarts : text.startsWith state.referencePrefix =
        decide (state.referencePrefix.toList <+: text.toList) := by
      rw [← Bool.coe_iff_coe, String.startsWith_string_iff, decide_eq_true_iff]
    exact congrArg Except.ok hstarts

end EntityBroker.TableManager
