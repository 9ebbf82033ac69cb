import EntityBroker.Proofs.TableManager.Effect
import EntityBroker.Proofs.TableManager.Resolution

/-!
# Registered values under later settings

Settings are merged before they are followed, so every accepted call applies the table that was
named last, whether or not it names one itself. A registered value therefore stays for the
properties that this table leaves alone; where the table has a row on the property, the next
accepted settings put the row's value back (`registered_until_reapplied`,
`reapplied_table_overwrites`).
-/

namespace EntityBroker.TableManager

section
variable (entity traitId key : String)

/-- The value that the table in settings gives to a property, by its last row on it. -/
def tabled? (settings : Info) : Option Value :=
  ((((textAt settings "read_traits").map writesOfTable).getD []).filterMap
    (Write.valueFor? entity traitId key)).getLast?

/-- The value that registering gives to a property: that of the last pair which has one. -/
def registered? (pairs : List (EntityReference × TraitsData)) : Option Value :=
  (pairs.filterMap fun (reference, data) =>
    if reference.text = entity then data.get? traitId key else none).getLast?

end

variable {state next : State} {merged : List Info} {writes : List Write}
variable {entity traitId key : String}

-- ---------------------------------------------------------------- registering

theorem filterMap_registered (pairs : List (EntityReference × TraitsData)) :
    ((pairs.flatMap fun (reference, data) => writesOfData reference data).filterMap
        (Write.valueFor? entity traitId key)).getLast? =
      registered? entity traitId key pairs := by
  rw [registered?, List.filterMap_flatMap, List.filterMap_eq_flatMap_toList]
  congr 2
  funext ⟨reference, data⟩
  rw [filterMap_writesOfData]
  split <;> simp_all

theorem property?_register {references : List EntityReference} {datas : List TraitsData}
    {access : PublishingAccess} {context : Context} {session : Session} {value : Value}
    (hverdict : (manager.batch .register (.register references datas access) context session
      state).verdict = .ok ())
    (hvalue : registered? entity traitId key (references.zip datas) = some value) :
    (manager.after state (.batch .register (.register references datas access) context
      session)).entities.property? entity traitId key = some value := by
  have heffect := effect_register state references datas access context session
  simp only [published, hverdict] at heffect
  generalize manager.after state _ = after at heffect ⊢
  cases heffect with
  | written _ =>
    rw [Store.property?_applyAll, filterMap_registered, hvalue]
    rfl

-- ---------------------------------------------------------------- later calls

/-- What a call does to a property that it neither registers nor names in a table: it leaves the
value, or puts back what the stored table says. -/
theorem Effect.property? (h : Effect state merged writes next)
    (hmerged : ∀ settings ∈ merged, settings.get? "read_traits" = none)
    (hwrites : ∀ w ∈ writes, w.valueFor? entity traitId key = none) :
    next.settings.get? "read_traits" = state.settings.get? "read_traits" ∧
      next.entities.property? entity traitId key =
        if merged = [] then state.entities.property? entity traitId key
        else (tabled? entity traitId key state.settings).or
          (state.entities.property? entity traitId key) := by
  cases h with
  | followed settings hfaults =>
    have hnone := hmerged settings (List.mem_singleton_self _)
    have htable : (state.settings.merge settings).get? "read_traits" =
        state.settings.get? "read_traits" := by
      rw [Dict.get?_merge, hnone, Option.none_or]
    refine ⟨htable, ?_⟩
    rw [if_neg (List.cons_ne_nil _ _), State.follow, Store.property?_applyAll]
    simp only [directivesOf, textAt, htable, tabled?]
  | written _ =>
    have hnone : writes.filterMap (Write.valueFor? entity traitId key) = [] :=
      List.filterMap_eq_nil_iff.mpr hwrites
    refine ⟨rfl, ?_⟩
    rw [if_pos rfl, Store.property?_applyAll, hnone]
    rfl

/-- Applying the stored table once or many times leaves the same. -/
theorem property?_run {later : List Manager.Call}
    (hmerged : ∀ settings ∈ manager.gather applied state later,
      settings.get? "read_traits" = none)
    (hwrites : ∀ w ∈ manager.gather published state later,
      w.valueFor? entity traitId key = none) :
    (manager.run state later).entities.property? entity traitId key =
      if manager.gather applied state later = [] then
        state.entities.property? entity traitId key
      else (tabled? entity traitId key state.settings).or
        (state.entities.property? entity traitId key) := by
  induction later generalizing state with
  | nil => rfl
  | cons call rest ih =>
    simp only [Manager.gather, List.mem_append, or_imp, forall_and] at hmerged hwrites
    obtain ⟨htable, hproperty⟩ := (effect_after state call).property? hmerged.1 hwrites.1
    -- No call on the way changes the table, so the rest of the run applies the one of `state`.
    have hsame : tabled? entity traitId key (manager.after state call).settings =
        tabled? entity traitId key state.settings := by
      simp only [tabled?, textAt, htable]
    rw [Manager.run_cons, ih hmerged.2 hwrites.2, hsame, hproperty, Manager.gather]
    by_cases hcall : applied state call = []
    · simp only [hcall, ↓reduceIte, List.nil_append]
    · simp [hcall, ← Option.or_assoc]

/-- What a successful registration stored for a property stays through every later run in which no
accepted settings name a table and no registration gives the property a value. If settings were
accepted on the way, a row on the property in the table that the settings hold from before goes
before it. It is resolved as long as the manager resolves at all. -/
theorem registered_until_reapplied (before : State) (later : List Manager.Call)
    (references : List EntityReference) (datas : List TraitsData) (access : PublishingAccess)
    (context : Context) (session : Session) (value : Value) :
    let registering : Manager.Call :=
      .batch .register (.register references datas access) context session
    let stored := manager.after before registering
    let final := manager.run stored later
    let accepted := manager.gather applied stored later
    (manager.batch .register (.register references datas access) context session before).verdict =
      .ok () →
    registered? entity traitId key (references.zip datas) = some value →
    (∀ settings ∈ accepted, settings.get? "read_traits" = none) →
    (∀ w ∈ manager.gather published stored later, w.valueFor? entity traitId key = none) →
    ∀ found, Resolves final entity traitId key found ↔
      final.has .resolution = true ∧
        found = if accepted = [] then value
          else (tabled? entity traitId key before.settings).getD value := by
  intro registering stored final accepted hverdict hvalue haccepted hothers found
  have hstored : stored.entities.property? entity traitId key = some value :=
    property?_register hverdict hvalue
  have hsettings : stored.settings = before.settings :=
    settings_batch (.register references datas access) before
  have hfinal := property?_run haccepted hothers
  rw [hstored, hsettings] at hfinal
  rw [resolves_iff, hfinal]
  refine and_congr_right fun _ => ?_
  split
  · rw [Option.some.injEq, eq_comm]
  · cases tabled? entity traitId key before.settings <;> simp [eq_comm]

/-- A registered place of the cat stays when only the prefix is set anew, as the table has no row on
it. -/
theorem registered_place_stays :
    let session : Session := ⟨⟨"h", "H", Dict.empty⟩, .recording fun _ => true⟩
    let settings := Dict.ofList [("capabilities", .text "resolution,publishing"),
      ("read_traits", .text "simple://cat,locatable,size,3")]
    let before := manager.run State.initial [.applySettings settings session]
    let references : List EntityReference := [⟨"simple://cat"⟩]
    let datas := [TraitsData.empty.set "locatable" "location" (.text "/new")]
    let stored := manager.after before
      (.batch .register (.register references datas .write) Context.empty session)
    let later : List Manager.Call :=
      [.applySettings (Dict.ofList [("prefix", .text "asset://")]) session]
    let accepted := manager.gather applied stored later
    (manager.batch .register (.register references datas .write) Context.empty session
        before).verdict = .ok () ∧
      registered? "simple://cat" "locatable" "location" (references.zip datas) =
        some (.text "/new") ∧
      (∀ settings ∈ accepted, settings.get? "read_traits" = none) ∧
      (∀ w ∈ manager.gather published stored later,
        w.valueFor? "simple://cat" "locatable" "location" = none) ∧
      accepted ≠ [] ∧
      Resolves (manager.run stored later) "simple://cat" "locatable" "location" (.text "/new") := by
  intro session settings before references datas stored later accepted
  have hverdict : (manager.batch .register (.register references datas .write) Context.empty session
      before).verdict = .ok () := rfl
  have hvalue : registered? "simple://cat" "locatable" "location" (references.zip datas) =
      some (.text "/new") := rfl
  have haccepted : ∀ settings ∈ accepted, settings.get? "read_traits" = none := by decide
  have hothers : ∀ w ∈ manager.gather published stored later,
      w.valueFor? "simple://cat" "locatable" "location" = none := nofun
  refine ⟨hverdict, hvalue, haccepted, hothers, by decide, ?_⟩
  exact (registered_until_reapplied before later references datas .write Context.empty session
    (.text "/new") hverdict hvalue haccepted hothers (.text "/new")).mpr ⟨by decide, by decide⟩

/-- A place that the table of the first settings gives comes back when the prefix is set anew, and
the registered one is lost. Nothing is resolved once only publishing is declared. -/
theorem reapplied_table_overwrites :
    let session : Session := ⟨⟨"h", "H", Dict.empty⟩, .recording fun _ => true⟩
    let settings := Dict.ofList [("capabilities", .text "resolution,publishing"),
      ("read_traits", .text "simple://cat,locatable,location,/old")]
    let before := manager.run State.initial [.applySettings settings session]
    let references : List EntityReference := [⟨"simple://cat"⟩]
    let datas := [TraitsData.empty.set "locatable" "location" (.text "/new")]
    let stored := manager.after before
      (.batch .register (.register references datas .write) Context.empty session)
    let final := fun later : Info => manager.run stored [.applySettings later session]
    Resolves stored "simple://cat" "locatable" "location" (.text "/new") ∧
      Resolves (final (Dict.ofList [("prefix", .text "asset://")]))
        "simple://cat" "locatable" "location" (.text "/old") ∧
      ¬ Resolves (final (Dict.ofList [("prefix", .text "asset://")]))
        "simple://cat" "locatable" "location" (.text "/new") ∧
      ∀ value, ¬ Resolves (final (Dict.ofList [("capabilities", .text "publishing")]))
        "simple://cat" "locatable" "location" value := by
  intro session settings before references datas stored final
  simp only [resolves_iff]
  refine ⟨?_, ?_, ?_, fun value => ?_⟩
  · decide
  · decide
  · decide
  · have hp :
        (final (Dict.ofList [("capabilities", .text "publishing")])).has .resolution = false := by
      decide
    simp [hp]

end EntityBroker.TableManager
