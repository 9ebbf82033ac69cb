import EntityBroker.Proofs.TableManager.Refusal
import EntityBroker.Proofs.TableManager.Rows

/-!
# Capabilities by name

The setting that names capabilities is split at its commas and nothing else is done to it.
`capabilities_by_name`: the pieces have to be names as they stand, a piece that is none is what the
error tells, and names that are joined by commas come back as the capabilities, which are then the
ones that the manager has, whatever it had before.
-/

namespace EntityBroker.TableManager

-- ---------------------------------------------------------------- pieces

/-- The pieces between the commas of a text. -/
structure Pieces (text : String) (pieces : List String) : Prop where
  nonempty : pieces ≠ []
  joined : ",".intercalate pieces = text
  apart : ∀ piece ∈ pieces, ',' ∉ piece.toList

section
variable {text first second : String} {pieces ps qs : List String}

theorem pieces_iff :
    Pieces text pieces ↔ pieces = (splitOn ',' text.toList).map String.ofList := by
  constructor
  · rintro ⟨hne, rfl, hapart⟩
    rw [splitOn_joined hne hapart]
    simp
  · rintro rfl
    refine ⟨?_, ?_, ?_⟩
    · simp [splitOn_eq, List.splitOn_ne_nil]
    · have htext : [','].intercalate (splitOn ',' text.toList) = text.toList := by
        rw [splitOn_eq, List.intercalate_splitOn]
      simp [← String.toList_inj, htext]
    · simp only [List.forall_mem_map, String.toList_ofList]
      exact fun piece hpiece hc => (of_mem_splitOn hpiece hc).1 rfl

theorem Pieces.append (hfirst : Pieces first ps) (hsecond : Pieces second qs) :
    Pieces (first ++ "," ++ second) (ps ++ qs) where
  nonempty := List.append_ne_nil_of_left_ne_nil hfirst.nonempty qs
  joined := by
    rw [String.intercalate_append_of_ne_nil hfirst.nonempty hsecond.nonempty, hfirst.joined,
      hsecond.joined]
  apart := List.forall_mem_append.mpr ⟨hfirst.apart, hsecond.apart⟩

theorem Pieces.unique (hps : Pieces text ps) (hqs : Pieces text qs) : ps = qs :=
  (pieces_iff.mp hps).trans (pieces_iff.mp hqs).symm

theorem pieces_empty : Pieces "" [""] := ⟨by decide, by decide, by decide⟩

/-- What is in a text is in one of its pieces, or parts two of them. -/
theorem Pieces.mem (h : Pieces text pieces) {c : Char} (hc : c ∈ text.toList) :
    c = ',' ∨ ∃ piece ∈ pieces, c ∈ piece.toList := by
  obtain ⟨-, rfl, -⟩ := h
  induction pieces with
  | nil => cases hc
  | cons piece rest ih =>
    by_cases hrest : rest = []
    · subst hrest
      rw [String.intercalate_singleton] at hc
      exact .inr ⟨piece, List.mem_cons_self .., hc⟩
    · simp only [String.intercalate_cons_of_ne_nil hrest, String.toList_append,
        List.mem_append] at hc
      rcases hc with (hc | hc) | hc
      · exact .inr ⟨piece, List.mem_cons_self .., hc⟩
      · exact .inl (List.mem_singleton.mp hc)
      · refine (ih hc).imp_right ?_
        rintro ⟨other, hother, hc⟩
        exact ⟨other, List.mem_cons_of_mem _ hother, hc⟩

-- ---------------------------------------------------------------- reading names

/-- What names are read as: the capabilities that have them, or else the fault of the first name
that no capability has. -/
inductive ReadAs (names : List String) : Except SettingFault (List Capability) → Prop
  | known (capabilities : List Capability) (h : capabilities.map Capability.name = names) :
      ReadAs names (.ok capabilities)
  | unknown (before : List String) (name : String) (after : List String)
      (hnames : names = before ++ name :: after)
      (hbefore : ∀ other ∈ before, ∃ c : Capability, c.name = other)
      (hname : ∀ c : Capability, c.name ≠ name) :
      ReadAs names (.error (.unknownCapability name))

theorem readAs_parseCapabilities (text : String) :
    ReadAs (namesIn text) (parseCapabilities text) := by
  rw [parseCapabilities_eq_orFirst]
  cases hunknown : unknownNames (namesIn text) with
  | nil => exact .known _ (map_name_of_known hunknown)
  | cons name others =>
    obtain ⟨before, after, hnames, hbefore, hname, -⟩ := List.filter_eq_cons_iff.mp hunknown
    refine .unknown before name after hnames ?_ ?_
    · simpa [Capability.mem_all] using hbefore
    · simpa [Capability.mem_all] using hname

theorem namesIn_of_pieces (h : Pieces text pieces) (hne : text ≠ "") : namesIn text = pieces := by
  rw [namesIn, if_neg hne, pieces_iff.mp h]

theorem readAs_pieces (h : Pieces text pieces) (hne : text ≠ "") :
    ReadAs pieces (parseCapabilities text) :=
  namesIn_of_pieces h hne ▸ readAs_parseCapabilities text

/-- Names can stand in a list, and need no room around them. -/
theorem name_plain (c : Capability) : c.name ≠ "" ∧ ',' ∉ c.name.toList ∧ ' ' ∉ c.name.toList := by
  cases c <;> decide

/-- The names of any capabilities, joined by commas, are read one by one. -/
theorem namesIn_joined (capabilities : List Capability) :
    namesIn (",".intercalate (capabilities.map Capability.name)) =
      capabilities.map Capability.name := by
  cases capabilities with
  | nil => rfl
  | cons first rest =>
    have hpieces : Pieces (",".intercalate ((first :: rest).map Capability.name))
        ((first :: rest).map Capability.name) :=
      ⟨List.cons_ne_nil _ _, rfl, List.forall_mem_map.mpr fun c _ => (name_plain c).2.1⟩
    refine namesIn_of_pieces hpieces fun htext => ?_
    have hsingle := (htext ▸ hpieces).unique pieces_empty
    exact (name_plain first).1 (List.cons.inj hsingle).1

/-- What can go wrong between names: room around a name, a comma after the last, two commas. -/
inductive Untidy : String → Prop
  | space (text : String) (h : ' ' ∈ text.toList) : Untidy text
  | trailing (text : String) : Untidy (text ++ ",")
  | doubled (before after : String) : Untidy (before ++ ",," ++ after)

theorem exists_pieces (text : String) : ∃ pieces, Pieces text pieces := ⟨_, pieces_iff.mpr rfl⟩

theorem Untidy.ne_empty (h : Untidy text) : text ≠ "" := by
  cases h with
  | space _ h =>
    rintro rfl
    cases h
  | trailing before => simp
  | doubled before after => simp

theorem Untidy.not_named (h : Untidy text) (hpieces : Pieces text pieces) :
    ¬ ∀ piece ∈ pieces, ∃ c : Capability, c.name = piece := by
  intro hnamed
  have hempty : "" ∉ pieces := by
    intro hmem
    obtain ⟨c, hc⟩ := hnamed "" hmem
    exact (name_plain c).1 hc
  cases h with
  | space _ h =>
    rcases hpieces.mem h with hcomma | ⟨piece, hpiece, hspace⟩
    · cases hcomma
    · obtain ⟨c, rfl⟩ := hnamed piece hpiece
      exact (name_plain c).2.2 hspace
  | trailing before =>
    obtain ⟨ps, hps⟩ := exists_pieces before
    obtain rfl := hpieces.unique (by simpa using hps.append pieces_empty)
    exact hempty (by simp)
  | doubled before after =>
    obtain ⟨ps, hps⟩ := exists_pieces before
    obtain ⟨qs, hqs⟩ := exists_pieces after
    have hcommas : before ++ "," ++ ("" ++ "," ++ after) = before ++ ",," ++ after := by
      simp [← String.toList_inj]
    obtain rfl := hpieces.unique (hcommas ▸ hps.append (pieces_empty.append hqs))
    exact hempty (by simp)

theorem parseCapabilities_ok_iff (h : Pieces text pieces) :
    (∃ capabilities, parseCapabilities text = .ok capabilities) ↔
      text = "" ∨ ∀ piece ∈ pieces, ∃ c : Capability, c.name = piece := by
  by_cases hne : text = ""
  · subst hne
    exact iff_of_true ⟨[], rfl⟩ (.inl rfl)
  · have hread := readAs_pieces h hne
    generalize parseCapabilities text = result at hread ⊢
    cases hread with
    | known capabilities hnames =>
      refine iff_of_true ⟨capabilities, rfl⟩ (.inr ?_)
      rintro piece hpiece
      obtain ⟨c, -, rfl⟩ := List.mem_map.mp (hnames ▸ hpiece)
      exact ⟨c, rfl⟩
    | unknown before name after hnames _ hname =>
      refine iff_of_false ?_ ?_
      · rintro ⟨_, ⟨⟩⟩
      · rintro (rfl | hknown)
        · exact hne rfl
        · obtain ⟨c, hc⟩ := hknown name (by simp [hnames])
          exact hname c hc

theorem mem_parseCapabilities (h : Pieces text pieces) {capabilities : List Capability}
    (hok : parseCapabilities text = .ok capabilities) (c : Capability) :
    c ∈ capabilities ↔ c.name ∈ pieces := by
  by_cases hne : text = ""
  · subst hne
    cases hok
    obtain rfl := h.unique pieces_empty
    simp [(name_plain c).1]
  · have hread := readAs_pieces h hne
    rw [hok] at hread
    cases hread with
    | known _ hnames => rw [← hnames, List.mem_map_of_injective Capability.name_injective]

theorem parseCapabilities_error (h : Pieces text pieces) {fault : SettingFault}
    (herror : parseCapabilities text = .error fault) :
    ∃ before piece after, pieces = before ++ piece :: after ∧
      (∀ other ∈ before, ∃ c : Capability, c.name = other) ∧
      (∀ c : Capability, c.name ≠ piece) ∧ fault = .unknownCapability piece := by
  have hne : text ≠ "" := by
    rintro rfl
    cases herror
  have hread := readAs_pieces h hne
  rw [herror] at hread
  cases hread with
  | unknown before name after hnames hbefore hname =>
    exact ⟨before, name, after, hnames, hbefore, hname, rfl⟩

end

-- ---------------------------------------------------------------- settings with names

/-- Settings that name capabilities are accepted, and the manager then has these and no others. -/
theorem applySettings_named {state : State} (hstate : faultsOf state.settings = [])
    (capabilities : List Capability) {settings : Info}
    (hnames : settings.get? "capabilities" =
      some (.text (",".intercalate (capabilities.map Capability.name))))
    (htext : ∀ key ∈ textKeys, ∀ value, settings.get? key = some value → value.asText? ≠ none)
    (session : Session) :
    (applySettings settings session state).result = .ok () ∧
      ∀ c, (applySettings settings session state).state.has c = decide (c ∈ capabilities) := by
  have hfaults : faultsOf settings = [] := by
    by_contra hne
    rcases faultsOf_ne_nil.mp hne with ⟨key, hkey, value, hvalue, htype⟩ | ⟨text, hget, hunknown⟩
    · exact htext key hkey value hvalue htype
    · obtain rfl := Value.text.inj (Option.some.inj (hnames.symm.trans hget))
      obtain ⟨name, hname, hnone⟩ := hunknown
      rw [namesIn_joined] at hname
      obtain ⟨c, -, rfl⟩ := List.mem_map.mp hname
      exact hnone c rfl
  have hmerged := (faultsOf_merge hstate settings).trans hfaults
  obtain ⟨hafter, hresult⟩ := applySettings_faultless hmerged session
  refine ⟨hresult, fun c => ?_⟩
  have hread := (Follows.of_faultless hfaults state).capabilities _ hnames
  rw [namesIn_joined] at hread
  have hsame := List.map_injective_iff.mpr Capability.name_injective hread
  rw [hafter, State.has, hsame, List.contains_eq_mem]

/-- A text names capabilities if it is empty or each of its pieces is the name of one, with nothing
around it; it then names exactly these, and otherwise the error tells the first piece that is no
name. So settings with the names of any capabilities, in any order and with any of them repeated,
are accepted after every run, and the manager then has these capabilities and no others. -/
theorem capabilities_by_name :
    (∀ text, ∃! pieces, Pieces text pieces) ∧
    (∀ text pieces, Pieces text pieces →
      ((∃ capabilities, parseCapabilities text = .ok capabilities) ↔
        text = "" ∨ ∀ piece ∈ pieces, ∃ c : Capability, c.name = piece) ∧
      (∀ capabilities, parseCapabilities text = .ok capabilities →
        ∀ c, c ∈ capabilities ↔ c.name ∈ pieces) ∧
      ∀ fault, parseCapabilities text = .error fault →
        ∃ before piece after, pieces = before ++ piece :: after ∧
          (∀ other ∈ before, ∃ c : Capability, c.name = other) ∧
          (∀ c : Capability, c.name ≠ piece) ∧
          fault.toError = .configuration s!"SimpleManager: unsupported capability: {piece}") ∧
    (∀ text, Untidy text → ∃ fault, parseCapabilities text = .error fault) ∧
    ∀ calls (capabilities : List Capability) (settings : Info) session,
      settings.get? "capabilities" =
        some (.text (",".intercalate (capabilities.map Capability.name))) →
      (∀ key ∈ textKeys, ∀ value, settings.get? key = some value → value.asText? ≠ none) →
      let reply := manager.applySettings settings session (manager.run State.initial calls)
      reply.result = .ok () ∧
        ∀ c, (manager.hasCapability c reply.state).result = .ok (decide (c ∈ capabilities)) := by
  refine ⟨fun text => ?_, fun text pieces h => ⟨parseCapabilities_ok_iff h, ?_, ?_⟩, ?_, ?_⟩
  · obtain ⟨pieces, h⟩ := exists_pieces text
    exact ⟨pieces, h, fun _ hother => hother.unique h⟩
  · exact fun _ hok => mem_parseCapabilities h hok
  · intro fault herror
    obtain ⟨before, piece, after, hpieces, hbefore, hpiece, rfl⟩ := parseCapabilities_error h herror
    exact ⟨before, piece, after, hpieces, hbefore, hpiece, rfl⟩
  · intro text huntidy
    obtain ⟨pieces, h⟩ := exists_pieces text
    cases hparse : parseCapabilities text with
    | error fault => exact ⟨fault, rfl⟩
    | ok capabilities =>
      rcases (parseCapabilities_ok_iff h).mp ⟨capabilities, hparse⟩ with hempty | hnamed
      · exact absurd hempty huntidy.ne_empty
      · exact absurd hnamed (huntidy.not_named h)
  · intro calls capabilities settings session hnames htext
    have hstate : faultsOf (manager.run State.initial calls).settings = [] :=
      faultsOf_run rfl calls
    obtain ⟨hresult, hhas⟩ := applySettings_named hstate capabilities hnames htext session
    exact ⟨hresult, fun c => congrArg Except.ok (hhas c)⟩

/-- A blank after a comma belongs to the name. -/
example : parseCapabilities "resolution, publishing" =
    .error (.unknownCapability " publishing") := by decide

end EntityBroker.TableManager
