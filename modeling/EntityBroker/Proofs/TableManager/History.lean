import EntityBroker.Proofs.Manager.Run
import EntityBroker.Proofs.TableManager.Settings
import EntityBroker.Proofs.TableManager.Written

/-!
# The store and its history

A run writes by two calls: applying settings writes the rows of the table that the settings applied
so far name last, registering writes the data of each reference. `Records` says what one call adds
to the history of a run, by the text of the table and by what data has, and `Recorded` what a run
adds. `store_is_last_write`: after any run from the initial state the store is what its history
says, the last write deciding, and nothing that was there goes away in a longer run.
-/

namespace EntityBroker.TableManager

/-- What a run has written, and the table that the settings applied so far name last. -/
structure History where
  table : Option String
  writes : List Write

def History.start : History := ⟨none, []⟩

def History.add (history : History) (writes : List Write) : History :=
  { history with writes := history.writes ++ writes }

/-- The table that settings name, if they name one. -/
def tableOf (settings : Info) : Option String :=
  (settings.get? "read_traits").bind Value.asText?

/-- A call that neither applies settings nor registers. -/
def IsQuery : Manager.Call → Prop
  | .applySettings _ _ => False
  | .batch .register _ _ _ => False
  | _ => True

/-- What a call in a state makes of the history before it. Settings that do not name a table apply
the one of before again, if there is one; registering writes the data that goes with each reference
in turn; a call that fails, and every other call, writes nothing. -/
inductive Records (state : State) (history : History) : Manager.Call → History → Prop
  | tabled {settings : Info} {session : Session} {table : String} {writes : List Write}
      (hok : (manager.applySettings settings session state).result = .ok ())
      (htable : (tableOf settings).or history.table = some table)
      (hwrites : TableWrites table writes) :
      Records state history (.applySettings settings session)
        ({ history with table := some table }.add writes)
  | untabled {settings : Info} {session : Session}
      (hok : (manager.applySettings settings session state).result = .ok ())
      (htable : (tableOf settings).or history.table = none) :
      Records state history (.applySettings settings session) history
  | refused {settings : Info} {session : Session} {error : Error}
      (herror : (manager.applySettings settings session state).result = .error error) :
      Records state history (.applySettings settings session) history
  | registered {references : List EntityReference} {datas : List TraitsData}
      {access : PublishingAccess} {context : Context} {session : Session} {writes : List Write}
      (hok : (manager.batch .register (.register references datas access) context session
        state).verdict = .ok ())
      (hwrites : PairsWrite (references.zip datas) writes) :
      Records state history (.batch .register (.register references datas access) context session)
        (history.add writes)
  | unregistered {request : Request .register} {context : Context} {session : Session}
      {error : Error}
      (herror : (manager.batch .register request context session state).verdict = .error error) :
      Records state history (.batch .register request context session) history
  | asked {call : Manager.Call} (hquery : IsQuery call) : Records state history call history

/-- What a run of calls makes of the history before it. -/
inductive Recorded : State → History → List Manager.Call → History → Prop
  | nil (state : State) (history : History) : Recorded state history [] history
  | cons {state : State} {history middle last : History} {call : Manager.Call}
      {rest : List Manager.Call} (hcall : Records state history call middle)
      (hrest : Recorded (manager.after state call) middle rest last) :
      Recorded state history (call :: rest) last

variable {state : State} {history next : History} {call : Manager.Call}
variable {calls : List Manager.Call}

-- ---------------------------------------------------------------- one call

/-- The store holds what the history wrote, and the settings name its table. -/
structure Tracks (state : State) (history : History) : Prop where
  store : state.entities = Store.applyAll Dict.empty history.writes
  table : state.settings.get? "read_traits" = history.table.map Value.text

theorem Tracks.start : Tracks State.initial History.start := ⟨rfl, rfl⟩

theorem answer_state_of_ne {op : Operation} (h : op ≠ .register) (state : State)
    (request : Request op) : (answer state request).1 = state := by
  cases request with
  | register references datas access => exact absurd rfl h
  | _ => rfl

theorem batch_state_of_ne {op : Operation} (h : op ≠ .register) (state : State)
    (request : Request op) : (batch op request state).state = state := by
  unfold batch
  split
  · exact answer_state_of_ne h state request
  · rfl

/-- The table that is named last is the one that the merged settings hold. -/
theorem get?_table_merge (h : Tracks state history) {settings : Info} {d : Directives}
    (hd : readSettings (state.settings.merge settings) = .ok d) :
    (tableOf settings).or history.table = d.table := by
  have hmerged := readSettings_table hd
  rw [Dict.get?_merge, h.table] at hmerged
  cases hs : settings.get? "read_traits" with
  | none =>
    rw [hs, Option.none_or] at hmerged
    simp only [tableOf, hs, Option.bind_none, Option.none_or]
    cases hh : history.table <;> cases ht : d.table <;> simp_all
  | some value =>
    rw [hs, Option.some_or] at hmerged
    cases ht : d.table with
    | none => simp [ht] at hmerged
    | some text =>
      simp only [ht, Option.map_some, Option.some.injEq] at hmerged
      simp [tableOf, hs, hmerged, Value.asText?]

/-- Settings that are accepted apply the table that is named last. -/
theorem Tracks.applied (h : Tracks state history) {settings : Info} {session : Session}
    (hok : (manager.applySettings settings session state).result = .ok ()) :
    Tracks (manager.after state (.applySettings settings session))
      ({ history with table := (tableOf settings).or history.table }.add
        ((((tableOf settings).or history.table).map writesOfTable).getD [])) := by
  simp only [Manager.after, manager] at hok ⊢
  cases hd : readSettings (state.settings.merge settings) with
  | error fault =>
    rw [applySettings_of_error hd] at hok
    cases hok
  | ok d =>
    obtain ⟨hstate, -⟩ := applySettings_of_ok hd session
    rw [hstate, get?_table_merge h hd]
    constructor
    · rw [State.follow, h.store, History.add, Store.applyAll_append]
    · exact readSettings_table hd

theorem Tracks.refused (h : Tracks state history) {settings : Info} {session : Session}
    {error : Error}
    (herror : (manager.applySettings settings session state).result = .error error) :
    Tracks (manager.after state (.applySettings settings session)) history := by
  simp only [Manager.after, manager] at herror ⊢
  cases hd : readSettings (state.settings.merge settings) with
  | error fault =>
    rw [applySettings_of_error hd]
    exact h
  | ok d =>
    rw [(applySettings_of_ok hd session).2] at herror
    cases herror

theorem Tracks.registered (h : Tracks state history) {references : List EntityReference}
    {datas : List TraitsData} {access : PublishingAccess} {context : Context} {session : Session}
    {writes : List Write}
    (hok : (manager.batch .register (.register references datas access) context session
      state).verdict = .ok ())
    (hwrites : PairsWrite (references.zip datas) writes) :
    Tracks
      (manager.after state (.batch .register (.register references datas access) context session))
      (history.add writes) := by
  simp only [Manager.after, manager, batch] at hok ⊢
  split at hok
  · rename_i hp
    rw [if_pos hp]
    constructor
    · rw [History.add, Store.applyAll_append, ← h.store, hwrites.applyAll_eq]
      rfl
    · exact h.table
  · cases hok

theorem Tracks.unregistered (h : Tracks state history) {request : Request .register}
    {context : Context} {session : Session} {error : Error}
    (herror : (manager.batch .register request context session state).verdict = .error error) :
    Tracks (manager.after state (.batch .register request context session)) history := by
  simp only [Manager.after, manager, batch] at herror ⊢
  split at herror
  · cases herror
  · rename_i hp
    rw [if_neg hp]
    exact h

theorem Tracks.asked (h : Tracks state history) (hquery : IsQuery call) :
    Tracks (manager.after state call) history := by
  cases call with
  | applySettings => cases hquery
  | batch op request context session =>
    have hop : op ≠ .register := by
      rintro rfl
      exact hquery
    have hstate : manager.after state (.batch op request context session) = state :=
      batch_state_of_ne hop state request
    rwa [hstate]
  | _ => exact h

theorem Tracks.after (h : Tracks state history) (hcall : Records state history call next) :
    Tracks (manager.after state call) next := by
  cases hcall with
  | tabled hok htable hwrites =>
    have htracks := h.applied hok
    rw [tableWrites_iff.mp hwrites]
    rwa [htable] at htracks
  | untabled hok htable =>
    have htracks := h.applied hok
    rw [htable] at htracks
    obtain ⟨table, writes⟩ := history
    obtain rfl : table = none := (Option.or_eq_none_iff.mp htable).2
    simpa [History.add] using htracks
  | refused herror => exact h.refused herror
  | registered hok hwrites => exact h.registered hok hwrites
  | unregistered herror => exact h.unregistered herror
  | asked hquery => exact h.asked hquery

theorem exists_records (state : State) (history : History) (call : Manager.Call) :
    ∃ next, Records state history call next := by
  cases call with
  | applySettings settings session =>
    cases hresult : (manager.applySettings settings session state).result with
    | error error => exact ⟨history, .refused hresult⟩
    | ok =>
      cases htable : (tableOf settings).or history.table with
      | none => exact ⟨history, .untabled hresult htable⟩
      | some table => exact ⟨_, .tabled hresult htable (tableWrites_iff.mpr rfl)⟩
  | batch op request context session =>
    cases request with
    | register references datas access =>
      cases hverdict : (manager.batch .register (.register references datas access) context session
          state).verdict with
      | error error => exact ⟨history, .unregistered hverdict⟩
      | ok => exact ⟨_, .registered hverdict (pairsWrite_writesOfData _)⟩
    | _ => exact ⟨history, .asked trivial⟩
  | _ => exact ⟨history, .asked trivial⟩

-- ---------------------------------------------------------------- a run

theorem Tracks.run (h : Tracks state history) (hcalls : Recorded state history calls next) :
    Tracks (manager.run state calls) next := by
  induction hcalls with
  | nil => exact h
  | cons hcall _ ih => exact ih (h.after hcall)

theorem exists_recorded (state : State) (history : History) (calls : List Manager.Call) :
    ∃ last, Recorded state history calls last := by
  induction calls generalizing state history with
  | nil => exact ⟨history, .nil state history⟩
  | cons call rest ih =>
    obtain ⟨middle, hcall⟩ := exists_records state history call
    obtain ⟨last, hrest⟩ := ih (manager.after state call) middle
    exact ⟨last, .cons hcall hrest⟩

/-- What is written stays written. -/
theorem Records.subset (h : Records state history call next) : history.writes ⊆ next.writes := by
  cases h with
  | tabled | registered => exact List.subset_append_left ..
  | _ => exact List.Subset.refl _

theorem Recorded.subset (h : Recorded state history calls next) :
    history.writes ⊆ next.writes := by
  induction h with
  | nil => exact List.Subset.refl _
  | cons hcall _ ih => exact List.Subset.trans hcall.subset ih

-- ---------------------------------------------------------------- look-ups

theorem Tracks.contains_iff (h : Tracks state history) (e : String) :
    state.entities.contains e = true ↔ ∃ w ∈ history.writes, w.entityNamed = e := by
  rw [h.store, Store.contains_applyAll]
  simp [Dict.contains]

theorem Tracks.carries_iff (h : Tracks state history) (e t : String) :
    state.entities.Carries e t ↔ ∃ w ∈ history.writes, w.NamesTrait e t := by
  rw [h.store, Store.carries_applyAll]
  simp [Store.Carries]

theorem Tracks.property?_eq (h : Tracks state history) (e t k : String) :
    state.entities.property? e t k =
      (history.writes.filterMap (Write.valueFor? e t k)).getLast? := by
  rw [h.store, Store.property?_applyAll]
  simp [Store.property?]

theorem Tracks.property?_isSome (h : Tracks state history) (e t k : String) :
    (state.entities.property? e t k).isSome ↔ ∃ v, .property e t k v ∈ history.writes := by
  constructor
  · intro hs
    obtain ⟨v, hv⟩ := Option.isSome_iff_exists.mp hs
    rw [h.property?_eq] at hv
    obtain ⟨w, hw, hwv⟩ := List.mem_filterMap.mp (List.mem_of_getLast? hv)
    exact ⟨v, Write.valueFor?_eq_some.mp hwv ▸ hw⟩
  · rintro ⟨v, hv⟩
    have hmem : v ∈ history.writes.filterMap (Write.valueFor? e t k) :=
      List.mem_filterMap.mpr ⟨_, hv, Write.valueFor?_eq_some.mpr rfl⟩
    rw [h.property?_eq, List.getLast?_isSome]
    exact List.ne_nil_of_mem hmem

/-- A run has a history, and the writes of any history that fits it tell the store: an entity is
there if a write names it, it carries a trait if a write names that of it, and a property holds what
the last write to it gave. What a run leaves in the store is there in every longer run. -/
theorem store_is_last_write (calls : List Manager.Call) :
    (∃ history, Recorded State.initial History.start calls history) ∧
    ∀ history, Recorded State.initial History.start calls history →
    let store := (manager.run State.initial calls).entities
    let writes := history.writes
    (∀ e, store.contains e = true ↔ ∃ w ∈ writes, w.entityNamed = e) ∧
    (∀ e t, store.Carries e t ↔ ∃ w ∈ writes, w.NamesTrait e t) ∧
    (∀ e t k, (store.property? e t k).isSome ↔ ∃ v, .property e t k v ∈ writes) ∧
    (∀ e t k, store.property? e t k = (writes.filterMap (Write.valueFor? e t k)).getLast?) ∧
    ∀ later, let store' := (manager.run State.initial (calls ++ later)).entities
      (∀ e, store.contains e = true → store'.contains e = true) ∧
      (∀ e t, store.Carries e t → store'.Carries e t) ∧
      (∀ e t k, (store.property? e t k).isSome → (store'.property? e t k).isSome) := by
  refine ⟨exists_recorded _ _ calls, fun history hcalls => ?_⟩
  intro store writes
  have h : Tracks (manager.run State.initial calls) history := Tracks.start.run hcalls
  refine ⟨h.contains_iff, h.carries_iff, h.property?_isSome, h.property?_eq, fun later => ?_⟩
  -- the longer run has a history that adds to that of the shorter one
  obtain ⟨last, hlater⟩ := exists_recorded (manager.run State.initial calls) history later
  have h' : Tracks (manager.run State.initial (calls ++ later)) last := by
    rw [Manager.run_append]
    exact h.run hlater
  have hsub : writes ⊆ last.writes := hlater.subset
  refine ⟨fun e he => ?_, fun e t ht => ?_, fun e t k hk => ?_⟩
  · obtain ⟨w, hw, hwe⟩ := (h.contains_iff e).mp he
    exact (h'.contains_iff e).mpr ⟨w, hsub hw, hwe⟩
  · obtain ⟨w, hw, hwt⟩ := (h.carries_iff e t).mp ht
    exact (h'.carries_iff e t).mpr ⟨w, hsub hw, hwt⟩
  · obtain ⟨v, hv⟩ := (h.property?_isSome e t k).mp hk
    exact (h'.property?_isSome e t k).mpr ⟨v, hsub hv⟩

end EntityBroker.TableManager
