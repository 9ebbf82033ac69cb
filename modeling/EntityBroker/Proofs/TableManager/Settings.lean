import EntityBroker.TableManager

/-!
# Reading and applying settings

Each lemma reads the success of one step as what the settings hold: a text setting is there as text
or not at all, and directives are the four settings of their names.
-/

namespace EntityBroker.TableManager

theorem bind_ok {ε α β : Type} {x : Except ε α} {f : α → Except ε β} {b : β} :
    x >>= f = .ok b ↔ ∃ a, x = .ok a ∧ f a = .ok b := by
  cases x <;> simp [bind, Except.bind]

theorem textSetting_eq_ok {settings : Info} {key : String} {text : Option String} :
    textSetting settings key = .ok text ↔ settings.get? key = text.map Value.text := by
  unfold textSetting
  split
  · rename_i h
    cases text <;> simp [h]
  · rename_i s h
    cases text <;> simp [h]
  · rename_i v hv h
    cases text with
    | none => simp [h]
    | some s => simpa [h] using hv s

/-- The table of directives is the setting of that name. -/
theorem readSettings_table {settings : Info} {d : Directives} (h : readSettings settings = .ok d) :
    settings.get? "read_traits" = d.table.map Value.text := by
  simp only [readSettings, bind_ok] at h
  obtain ⟨_, -, names, -, h⟩ := h
  -- the capabilities are read by a step of their own only if they are named
  cases names
  all_goals
    simp only [bind_ok] at h
    obtain ⟨_, -, _, -, table, htable, h⟩ := h
    cases h
    exact textSetting_eq_ok.mp htable

theorem applySettings_of_error {state : State} {settings : Info} {fault : SettingFault}
    (h : readSettings (state.settings.merge settings) = .error fault) (session : Session) :
    applySettings settings session state = ⟨state, [], .error fault.toError⟩ := by
  simp only [applySettings, h]

theorem applySettings_of_ok {state : State} {settings : Info} {d : Directives}
    (h : readSettings (state.settings.merge settings) = .ok d) (session : Session) :
    (applySettings settings session state).state =
        state.follow (state.settings.merge settings) d ∧
      (applySettings settings session state).result = .ok () := by
  simp only [applySettings, h, and_self]

end EntityBroker.TableManager
