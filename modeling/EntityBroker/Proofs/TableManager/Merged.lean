import EntityBroker.Proofs.TableManager.Refusal
import EntityBroker.Proofs.TableManager.Replay

/-!
# Settings applied again and settings put together

Every accepted call follows the merged settings as a whole, the table among them included. So
settings that hold every key of earlier ones, and the table of these, leave nothing of them to be
seen (`settled_settled`): applying settings again changes nothing, and two calls come to one call
with the settings of both, as long as the later ones bring no table of their own.
-/

namespace EntityBroker.TableManager

/-- The state that has followed the settings as a whole. -/
def State.settled (state : State) (settings : Info) : State :=
  state.follow settings (directivesOf settings)

section
variable {state : State} {settings : Info}

theorem applySettings_ok_iff (session : Session) :
    (manager.applySettings settings session state).result = .ok () ↔
      faultsOf (state.settings.merge settings) = [] := by
  cases hfaults : faultsOf (state.settings.merge settings) with
  | nil => exact iff_of_true (applySettings_faultless hfaults session).2 rfl
  | cons fault others =>
    have hreply : manager.applySettings settings session state =
        ⟨state, [], .error fault.toError⟩ := applySettings_faulty hfaults session
    rw [hreply]
    exact ⟨nofun, nofun⟩

theorem applySettings_settled (h : faultsOf (state.settings.merge settings) = [])
    (session : Session) :
    (manager.applySettings settings session state).state =
      state.settled (state.settings.merge settings) :=
  (applySettings_faultless h session).1

end

-- ---------------------------------------------------------------- settings over earlier ones

theorem textAt_eq_none_iff {settings : Info} {key : String} (h : faultsAt settings key = []) :
    textAt settings key = none ↔ settings.get? key = none := by
  cases hget : settings.get? key with
  | none => simp [textAt, hget]
  | some value =>
    cases value with
    | text text => simp [textAt, hget, Value.asText?]
    | _ => simp [faultsAt, hget, faultsIn] at h

theorem getD_getD {α : Type} {first second : Option α} (h : second = none → first = none)
    (default : α) : second.getD (first.getD default) = second.getD default := by
  cases second with
  | none => rw [h rfl, Option.getD_none, Option.getD_none]
  | some value => rfl

/-- Settings that hold all that earlier ones hold, with the same table, hide what these did. -/
theorem settled_settled {first second : Info} (hfaults : faultsOf second = [])
    (hkeys : ∀ key, second.get? key = none → first.get? key = none)
    (htable : second.get? "read_traits" = first.get? "read_traits") (state : State) :
    (state.settled first).settled second = state.settled second := by
  have hhidden : ∀ key ∈ textKeys, textAt second key = none → textAt first key = none := by
    intro key hkey hnone
    rw [textAt, hkeys key ((textAt_eq_none_iff (faultsOf_eq_nil.mp hfaults key hkey)).mp hnone)]
    rfl
  have hsame : textAt second "read_traits" = textAt first "read_traits" := by
    rw [textAt, htable, textAt]
  have hcapabilities : (directivesOf second).capabilities = none →
      (directivesOf first).capabilities = none := by
    intro hnone
    have htext := hhidden "capabilities" (by decide) (Option.map_eq_none_iff.mp hnone)
    rw [directivesOf, htext, Option.map_none]
  simp only [State.settled, State.follow, State.mk.injEq, true_and]
  refine ⟨getD_getD hcapabilities _, ?_, getD_getD (hhidden "prefix" (by decide)) _,
    getD_getD (hhidden "read_policy" (by decide)) _⟩
  simp only [directivesOf, hsame]
  exact Store.applyAll_again ..

-- ---------------------------------------------------------------- calls

/-- Settings without a table, applied over others, come to the settings of both. -/
theorem after_settled {merged later : Info} (h : faultsOf merged = [])
    (hlater : faultsOf later = []) (htable : later.get? "read_traits" = none) (state : State)
    (session : Session) :
    manager.after (state.settled merged) (.applySettings later session) =
      state.settled (merged.merge later) := by
  have hfaults : faultsOf (merged.merge later) = [] := by rw [faultsOf_merge h, hlater]
  have hafter : manager.after (state.settled merged) (.applySettings later session) =
      (state.settled merged).settled (merged.merge later) :=
    applySettings_settled hfaults session
  rw [hafter]
  refine settled_settled hfaults (fun key hnone => ?_) ?_ state
  · rw [Dict.get?_merge, Option.or_eq_none_iff] at hnone
    exact hnone.2
  · rw [Dict.get?_merge, htable, Option.none_or]

/-- In every state, settings that are accepted are accepted a second time, which changes nothing.
And where settings without a table are accepted after them, the call with both, the later ones going
before the earlier, is accepted and leaves the same state. -/
theorem accepted_settings_collapse {state : State} {settings : Info} {session : Session}
    (h : (manager.applySettings settings session state).result = .ok ()) :
    let once := (manager.applySettings settings session state).state
    (∀ again,
      let reply := manager.applySettings settings again once
      reply.result = .ok () ∧ reply.state = once) ∧
    ∀ later next whole, later.get? "read_traits" = none →
      (manager.applySettings later next once).result = .ok () →
      let reply := manager.applySettings (settings.merge later) whole state
      reply.result = .ok () ∧ reply.state = (manager.applySettings later next once).state := by
  have hfaults := (applySettings_ok_iff session).mp h
  rw [applySettings_settled hfaults session]
  intro once
  constructor
  · intro again reply
    have hsame : once.settings.merge settings = state.settings.merge settings := Dict.merge_again ..
    have haccepted : faultsOf (once.settings.merge settings) = [] := hsame ▸ hfaults
    refine ⟨(applySettings_ok_iff again).mpr haccepted, ?_⟩
    calc reply.state
        = once.settled (once.settings.merge settings) := applySettings_settled haccepted again
      _ = once.settled (state.settings.merge settings) := by rw [hsame]
      _ = once := settled_settled hfaults (fun _ hnone => hnone) rfl state
  · intro later next whole htable hnext reply
    have haccepted : faultsOf ((state.settings.merge settings).merge later) = [] :=
      (applySettings_ok_iff next).mp hnext
    have hlater : faultsOf later = [] := (faultsOf_merge hfaults later).symm.trans haccepted
    have hwhole : faultsOf (state.settings.merge (settings.merge later)) = [] := by
      rw [← Dict.merge_assoc, haccepted]
    refine ⟨(applySettings_ok_iff whole).mpr hwhole, ?_⟩
    calc reply.state
        = state.settled (state.settings.merge (settings.merge later)) :=
          applySettings_settled hwhole whole
      _ = state.settled ((state.settings.merge settings).merge later) := by rw [Dict.merge_assoc]
      _ = (manager.applySettings later next once).state :=
          (after_settled hfaults hlater htable state next).symm

/-- A table with two rows on one property, and a prefix that is set after it. -/
theorem cat_settings_collapse :
    let session : Session := ⟨⟨"h", "H", Dict.empty⟩, .recording fun _ => true⟩
    let settings := Dict.ofList [("prefix", .text "cat://"),
      ("read_traits", .text "cat://tom,named,name,Tom\ncat://tom,named,name,Felix")]
    let later := Dict.ofList [("prefix", .text "tom://")]
    let once := (manager.applySettings settings session State.initial).state
    (manager.applySettings settings session State.initial).result = .ok () ∧
      later.get? "read_traits" = none ∧
      (manager.applySettings later session once).result = .ok () ∧
      (manager.applySettings settings session once).state = once ∧
      (manager.applySettings (settings.merge later) session State.initial).state =
        (manager.applySettings later session once).state := by
  intro session settings later once
  have h : (manager.applySettings settings session State.initial).result = .ok () := rfl
  have htable : later.get? "read_traits" = none := rfl
  have hlater : (manager.applySettings later session once).result = .ok () := rfl
  obtain ⟨hagain, hboth⟩ := accepted_settings_collapse h
  exact ⟨h, htable, hlater, (hagain session).2, (hboth later session session htable hlater).2⟩

end EntityBroker.TableManager
