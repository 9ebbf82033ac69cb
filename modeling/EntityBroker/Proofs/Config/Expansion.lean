import Mathlib
import EntityBroker.Program.Toml.Section
import EntityBroker.Proofs.Config.Loading
import EntityBroker.Proofs.Utf8.Spelling

/-!
# Settings with the directory put in

A configuration loads exactly if each of the settings that the reader found is a number, a boolean
or a text, and its settings are then these, with the directory in place of every placeholder
(`settings_loaded`). `Replaced` says what that means for a text without saying how it is found. A
directory as paths have it, from the top and without a dollar sign, leaves no placeholder behind,
not even one that is half the directory's and half the text's.
-/

namespace EntityBroker.Config

-- ---------------------------------------------------------------- replacing every occurrence

/-- A text in which the occurrences of a pattern were replaced from left to right. Up to the first
of them the text is kept; what comes after it is replaced in turn, and what was put in for it is not
looked at again. -/
inductive Replaced (pattern replacement : List Char) : List Char → List Char → Prop
  | absent (text : List Char) (h : ¬ pattern <:+: text) : Replaced pattern replacement text text
  | first (before after result : List Char) (hfirst : ¬ pattern <:+: (before ++ pattern).dropLast)
      (h : Replaced pattern replacement after result) :
      Replaced pattern replacement (before ++ pattern ++ after) (before ++ replacement ++ result)

section
variable {pattern replacement text result : List Char} {c : Char}

/-- A character at which no occurrence starts is kept. -/
theorem Replaced.cons (h : Replaced pattern replacement text result)
    (hc : ¬ pattern <+: c :: text) : Replaced pattern replacement (c :: text) (c :: result) := by
  cases h with
  | absent _ h =>
    refine .absent _ ?_
    rw [List.infix_cons_iff]
    rintro (hstart | hinside)
    · exact hc hstart
    · exact h hinside
  | first before after result hfirst h =>
    have hne : before ++ pattern ≠ [] := by
      intro hnil
      obtain ⟨rfl, rfl⟩ := List.append_eq_nil_iff.mp hnil
      exact hc (List.nil_prefix)
    refine .first (c :: before) after result ?_ h
    rw [List.cons_append, List.dropLast_cons_of_ne_nil hne, List.infix_cons_iff]
    rintro (hstart | hinside)
    · -- An occurrence at `c` that ends before the first one would start the whole text.
      refine hc (hstart.trans ?_)
      simp only [List.prefix_cons_inj]
      exact (List.dropLast_prefix _).trans (List.prefix_append ..)
    · exact hfirst hinside

theorem replaced_replaceFrom (hne : pattern ≠ []) (skip : Nat) (text : List Char) :
    Replaced pattern replacement (text.drop skip)
      (replaceFrom pattern replacement skip text) := by
  induction text generalizing skip with
  | nil =>
    rw [List.drop_nil]
    cases skip <;> exact .absent [] (by simpa using hne)
  | cons c rest ih =>
    cases skip with
    | succ skip => exact ih skip
    | zero =>
      rw [List.drop_zero, replaceFrom_cons]
      by_cases hstart : pattern <+: c :: rest
      · obtain ⟨after, hafter⟩ := hstart
        have hdrop : rest.drop (pattern.length - 1) = after := by
          obtain ⟨first, others, rfl⟩ := List.exists_cons_of_ne_nil hne
          obtain ⟨rfl, rfl⟩ := List.cons.inj hafter
          simp
        have hfirst : ¬ pattern <:+: ([] ++ pattern).dropLast := by
          intro h
          have hpos := List.length_pos_iff.mpr hne
          have hle := h.length_le
          simp only [List.nil_append, List.length_dropLast] at hle
          omega
        rw [if_pos ⟨after, hafter⟩, ← hafter]
        simpa using Replaced.first [] after _ hfirst (hdrop ▸ ih (pattern.length - 1))
      · rw [if_neg hstart]
        exact (ih 0).cons hstart

theorem replaceFrom_first (hne : pattern ≠ []) {before : List Char}
    (hfirst : ¬ pattern <:+: (before ++ pattern).dropLast) (after : List Char) :
    replaceFrom pattern replacement 0 (before ++ pattern ++ after) =
      before ++ replacement ++ replaceFrom pattern replacement 0 after := by
  induction before with
  | nil => exact replaceFrom_append hne after
  | cons c rest ih =>
    have hrest : rest ++ pattern ≠ [] := List.append_ne_nil_of_right_ne_nil rest hne
    rw [List.cons_append, List.dropLast_cons_of_ne_nil hrest, List.infix_cons_iff, not_or] at hfirst
    have hstart : ¬ pattern <+: c :: (rest ++ pattern ++ after) := by
      intro h
      refine hfirst.1 (List.prefix_of_prefix_length_le h ?_ ?_)
      · rw [List.prefix_cons_inj]
        exact (List.dropLast_prefix _).trans (List.prefix_append ..)
      · have hpos := List.length_pos_iff.mpr hne
        simp only [List.length_cons, List.length_dropLast, List.length_append]
        omega
    simp only [List.cons_append, replaceFrom_cons, hstart, ↓reduceIte, ih hfirst.2]

/-- There is one way to replace every occurrence. -/
theorem replaced_iff (hne : pattern ≠ []) :
    Replaced pattern replacement text result ↔ result = replaceFrom pattern replacement 0 text := by
  constructor
  · intro h
    induction h with
    | absent text h => exact Eq.symm <| replaceFrom_of_not_infix h
    | first before after result hfirst _ ih => rw [replaceFrom_first hne hfirst, ih]
  · rintro rfl
    exact replaced_replaceFrom hne 0 text

/-- Nothing that holds a character outside the pattern is part of an occurrence. -/
theorem infix_append_cons (hc : c ∉ pattern) (before after : List Char) :
    pattern <:+: before ++ c :: after ↔ pattern <:+: before ∨ pattern <:+: after := by
  induction before with
  | nil =>
    simp only [List.nil_append, List.infix_cons_iff, List.infix_nil]
    refine or_congr ?_ Iff.rfl
    rw [← List.nil_append (c :: after), prefix_append_cons hc, List.prefix_nil]
  | cons first rest ih =>
    have hstart : pattern <+: first :: (rest ++ c :: after) ↔ pattern <+: first :: rest :=
      prefix_append_cons hc (first :: rest) after
    simp only [List.cons_append, List.infix_cons_iff, ih, hstart, or_assoc]

/-- No occurrence starts in text without the pattern's first character. -/
theorem infix_of_infix_append {first : Char} {others before after : List Char}
    (hfirst : first ∉ before) (h : first :: others <:+: before ++ after) :
    first :: others <:+: after := by
  induction before with
  | nil => exact h
  | cons c rest ih =>
    rw [List.mem_cons, not_or] at hfirst
    rw [List.cons_append, List.infix_cons_iff] at h
    rcases h with hstart | hinside
    · exact absurd (List.cons_prefix_cons.mp hstart).1 hfirst.1
    · exact ih hfirst.2 hinside

/-- A replacement that begins with a character outside the pattern, and in which no occurrence can
start, leaves none: neither in it nor across its ends. -/
theorem Replaced.not_infix {first : Char} {others more : List Char}
    (h : Replaced (first :: others) (c :: more) text result) (hc : c ∉ first :: others)
    (hfirst : first ∉ more) : ¬ first :: others <:+: result := by
  induction h with
  | absent text h => exact h
  | first before after result hleft _ ih =>
    rw [List.append_assoc, List.cons_append, infix_append_cons hc]
    rintro (hbefore | hafter)
    · refine hleft (hbefore.trans ?_)
      rw [List.dropLast_append_of_ne_nil (List.cons_ne_nil _ _)]
      exact (List.prefix_append ..).isInfix
    · exact ih (infix_of_infix_append hfirst hafter)

end

-- ---------------------------------------------------------------- one value

/-- A value that can be a setting. -/
def IsPlain : Toml.Value → Prop
  | .integer _ | .float _ | .boolean _ | .text _ => True
  | .moment _ | .array _ | .table _ => False

instance : DecidablePred IsPlain := fun v => by cases v <;> unfold IsPlain <;> infer_instance

/-- What a value of the file is as a setting, in texts with the directory for the placeholder. -/
inductive BecomesSetting (directory : String) : Toml.Value → Value → Prop
  | integer (n : Int64) : BecomesSetting directory (.integer n) (.int n)
  | float (x : Double) : BecomesSetting directory (.float x) (.float x)
  | boolean (b : Bool) : BecomesSetting directory (.boolean b) (.bool b)
  | text (s expanded : String)
      (h : Replaced directoryPlaceholder.toList directory.toList s.toList expanded.toList) :
      BecomesSetting directory (.text s) (.text expanded)

theorem replaced_iff_expand {directory text expanded : String} :
    Replaced directoryPlaceholder.toList directory.toList text.toList expanded.toList ↔
      expanded = expand directory text := by
  rw [replaced_iff (by decide), ← toList_expand, String.toList_inj]

/-- A directory from the top and without a dollar sign brings in no placeholder. -/
theorem BecomesSetting.not_infix {directory text : String} {v : Toml.Value}
    (h : BecomesSetting directory v (.text text)) (habsolute : directory.startsWith "/" = true)
    (hdollar : '$' ∉ directory.toList) : ¬ directoryPlaceholder.toList <:+: text.toList := by
  obtain ⟨more, hmore⟩ := String.startsWith_string_iff.mp habsolute
  have hslash : '/' ∉ directoryPlaceholder.toList := by decide
  have hpattern : directoryPlaceholder.toList = '$' :: directoryPlaceholder.toList.tail := by decide
  cases h with
  | text s _ h =>
    have hmem : '$' ∉ more := fun hmem => hdollar (hmore ▸ List.mem_append_right _ hmem)
    rw [← hmore] at h
    generalize directoryPlaceholder.toList = placeholder at h hslash hpattern ⊢
    rw [hpattern] at h hslash ⊢
    exact h.not_infix hslash hmem

theorem valueOf_eq_ok {directory key : String} {v : Toml.Value} {value : Value} :
    valueOf directory key v = .ok value ↔ BecomesSetting directory v value := by
  constructor
  · intro h
    cases v with
    | integer n => cases h; exact .integer n
    | float x => cases h; exact .float x
    | boolean b => cases h; exact .boolean b
    | text s => cases h; exact .text s _ (replaced_iff_expand.mpr rfl)
    | _ => cases h
  · intro h
    cases h with
    | text s expanded h => rw [replaced_iff_expand.mp h]; rfl
    | _ => rfl

theorem valueOf_of_plain {v : Toml.Value} (h : IsPlain v) (directory key : String) :
    ∃ value, valueOf directory key v = .ok value := by
  cases v with
  | moment _ => cases h
  | array _ => cases h
  | table _ => cases h
  | _ => exact ⟨_, rfl⟩

theorem valueOf_of_not_plain {v : Toml.Value} (h : ¬ IsPlain v) (directory key : String) :
    valueOf directory key v = .error (.unsupported key) := by
  cases v with
  | moment _ => rfl
  | array _ => rfl
  | table _ => rfl
  | _ => exact absurd trivial h

-- ---------------------------------------------------------------- all values

/-- The entry at which reading the settings stops. -/
def unsupported? (entries : List (String × Toml.Value)) : Option (String × Toml.Value) :=
  entries.find? fun e => ¬ IsPlain e.2

theorem valuesOf_of_unsupported {entries : List (String × Toml.Value)} {e : String × Toml.Value}
    (h : unsupported? entries = some e) (directory : String) :
    valuesOf directory entries = .error (.unsupported e.1) := by
  induction entries with
  | nil => cases h
  | cons head rest ih =>
    obtain ⟨key, v⟩ := head
    rw [unsupported?, List.find?_cons] at h
    rw [valuesOf]
    by_cases hplain : IsPlain v
    · obtain ⟨value, hvalue⟩ := valueOf_of_plain hplain directory key
      simp only [hplain, not_true_eq_false, decide_false] at h
      rw [hvalue, ih h]
      rfl
    · simp only [hplain, not_false_eq_true, decide_true, Option.some.injEq] at h
      subst h
      rw [valueOf_of_not_plain hplain]

theorem valuesOf_of_plain {entries : List (String × Toml.Value)}
    (h : ∀ e ∈ entries, IsPlain e.2) (directory : String) :
    ∃ values, valuesOf directory entries = .ok values ∧
      values.map Prod.fst = entries.map Prod.fst ∧
      ∀ key, Option.Rel (BecomesSetting directory) (entries.lookup key) (values.lookup key) := by
  induction entries with
  | nil => exact ⟨[], rfl, rfl, fun _ => .none⟩
  | cons head rest ih =>
    obtain ⟨key, v⟩ := head
    obtain ⟨hplain, hrest⟩ := List.forall_mem_cons.mp h
    obtain ⟨value, hvalue⟩ := valueOf_of_plain hplain directory key
    obtain ⟨values, hvalues, hkeys, hlookup⟩ := ih hrest
    refine ⟨(key, value) :: values, ?_, by simp [hkeys], fun other => ?_⟩
    · simp [valuesOf, hvalue, hvalues, Except.map]
    · simp only [List.lookup_cons]
      cases other == key
      · exact hlookup other
      · exact .some (valueOf_eq_ok.mp hvalue)

theorem infoOf_of_plain {table : Dict Toml.Value} (h : ∀ e ∈ table.entries, IsPlain e.2)
    (directory : String) :
    ∃ info, infoOf directory table = .ok info ∧
      ∀ key, Option.Rel (BecomesSetting directory) (table.get? key) (info.get? key) := by
  obtain ⟨values, hvalues, hkeys, hlookup⟩ := valuesOf_of_plain h directory
  have hascending : values.Pairwise fun a b => a.1 < b.1 := by
    have hsorted := List.pairwise_map.mpr table.ascending
    rw [← hkeys] at hsorted
    exact List.pairwise_map.mp hsorted
  refine ⟨Dict.ofList values, by rw [infoOf, hvalues]; rfl, fun key => ?_⟩
  have hget : (Dict.ofList values).get? key = values.lookup key := by
    rw [Dict.ofList, Dict.get?_insertAll _ hascending, Dict.get?_empty, Option.or_none]
  rw [hget]
  exact hlookup key

theorem infoOf_of_unsupported {table : Dict Toml.Value} {e : String × Toml.Value}
    (h : unsupported? table.entries = some e) (directory : String) :
    infoOf directory table = .error (.unsupported e.1) := by
  rw [infoOf, valuesOf_of_unsupported h]
  rfl

-- ---------------------------------------------------------------- loading

/-- A configuration loads exactly if no setting that the reader found is a date-time, an array or a
table. It has the identifier that was found then, and every setting under the same key, numbers and
booleans as they are and texts with the directory put in; and if the directory starts at the top and
has no dollar sign, no placeholder is left. Otherwise the error names the key whose bytes come first
among those with such a value. -/
theorem settings_loaded {read : Reader} {find : String → Found} {path directory : String}
    {part : Section} (hfile : Holds read find path directory part) :
    let table := part.settings
    ((∃ config, load read find path = .ok config) ↔
      ∀ key v, table.get? key = some v → IsPlain v) ∧
    (∀ config, load read find path = .ok config →
      config.identifier = part.identifier ∧
      (∀ key, Option.Rel (BecomesSetting directory) (table.get? key)
        (config.settings.get? key)) ∧
      (directory.startsWith "/" = true → '$' ∉ directory.toList →
        ∀ key text, config.settings.get? key = some (.text text) →
          ¬ directoryPlaceholder.toList <:+: text.toList)) ∧
    ∀ e, load read find path = .error e → ∃ key v, table.get? key = some v ∧ ¬ IsPlain v ∧
      (∀ other w, table.get? other = some w → ¬ IsPlain w → other ≠ key →
        Utf8.encode key < Utf8.encode other) ∧
      e = .configuration s!"Unsupported value type for '{key}'." := by
  intro table
  have hload := load_eq_of_holds hfile
  cases hfirst : unsupported? table.entries with
  | none =>
    have hplain : ∀ key v, table.get? key = some v → IsPlain v := by
      simpa [unsupported?] using Dict.find?_entries_eq_none.mp hfirst
    obtain ⟨info, hinfo, hsettings⟩ :=
      infoOf_of_plain (fun e he => hplain e.1 e.2 (Dict.mem_entries.mp he)) directory
    rw [hload, hinfo]
    refine ⟨iff_of_true ⟨_, rfl⟩ hplain, ?_, ?_⟩
    · rintro config ⟨⟩
      refine ⟨rfl, hsettings, fun habsolute hdollar key text htext => ?_⟩
      have hsetting := hsettings key
      rw [htext] at hsetting
      generalize table.get? key = stored at hsetting
      cases hsetting with
      | some hbecomes => exact hbecomes.not_infix habsolute hdollar
    · rintro e ⟨⟩
  | some e =>
    obtain ⟨key, v⟩ := e
    obtain ⟨hget, hpass, hleast⟩ := Dict.find?_entries_eq_some.mp hfirst
    have hplain : ¬ IsPlain v := of_decide_eq_true hpass
    rw [hload, infoOf_of_unsupported hfirst]
    refine ⟨iff_of_false ?_ fun h => hplain (h key v hget), ?_, ?_⟩
    · rintro ⟨_, ⟨⟩⟩
    · rintro _ ⟨⟩
    · rintro e ⟨⟩
      refine ⟨key, v, hget, hplain, fun other w hother hw hne => ?_, rfl⟩
      rcases hleast other w hother (decide_eq_true hw) with rfl | hlt
      · exact absurd rfl hne
      · exact Utf8.encode_lt_encode hlt

-- ---------------------------------------------------------------- placeholders within placeholders

/-- Texts in which a placeholder stands right after a dollar sign, and inside of half another one.
-/
def seamSettings : Dict Toml.Value :=
  Dict.ofList [("price", .text "$$\x7bconfig_dir\x7d"),
    ("nested", .text "$\x7bconfig_$\x7bconfig_dir\x7ddir\x7d"), ("layers", .integer 3)]

def seamConfiguration : String :=
  "[manager.settings]\n" ++
    "price = '$$\x7bconfig_dir\x7d'\n" ++
    "nested = '$\x7bconfig_$\x7bconfig_dir\x7ddir\x7d'\n" ++
    "layers = 3\n"

theorem holds_seamConfiguration (path directory : String) :
    Holds Toml.readSection (fun _ => .file (Utf8.encode seamConfiguration) directory) path directory
      ⟨"", seamSettings⟩ :=
  have hread : Toml.readSection seamConfiguration = .ok ⟨"", seamSettings⟩ := by cbv
  ⟨_, _, rfl, Utf8.decode_encode _, hread⟩

theorem loaded_eq (key : String) {directory : String} {v : Toml.Value} {value : Value}
    {loaded : Option Value}
    (h : Option.Rel (BecomesSetting directory) (some v) loaded)
    (hvalue : valueOf directory key v = .ok value) : loaded = some value := by
  cases h with
  | some h =>
    rw [valueOf_eq_ok.mpr h] at hvalue
    cases hvalue
    rfl

/-- The inner placeholder is replaced, and what is left around it makes no new one. -/
theorem seams_loaded :
    let find := fun _ : String => Found.file (Utf8.encode seamConfiguration) "/assets"
    Holds Toml.readSection find "/assets/broker.toml" "/assets" ⟨"", seamSettings⟩ ∧
      "/assets".startsWith "/" = true ∧ '$' ∉ "/assets".toList ∧
      ∃ config, load Toml.readSection find "/assets/broker.toml" = .ok config ∧
        config.settings.get? "price" = some (.text "$/assets") ∧
        config.settings.get? "nested" = some (.text "$\x7bconfig_/assetsdir\x7d") ∧
        config.settings.get? "layers" = some (.int 3) ∧
        ∀ key text, config.settings.get? key = some (.text text) →
          ¬ directoryPlaceholder.toList <:+: text.toList := by
  intro find
  have hfile : Holds Toml.readSection find "/assets/broker.toml" "/assets" ⟨"", seamSettings⟩ :=
    holds_seamConfiguration ..
  have habsolute : "/assets".startsWith "/" = true := String.startsWith_string_iff.mpr (by decide)
  have hdollar : '$' ∉ "/assets".toList := by decide
  obtain ⟨hloads, hloaded, -⟩ := settings_loaded hfile
  have hplain : ∀ e ∈ seamSettings.entries, IsPlain e.2 := by decide
  obtain ⟨config, hload⟩ := hloads.mpr fun key v hget => hplain _ (Dict.mem_entries.mpr hget)
  obtain ⟨-, hsettings, hnone⟩ := hloaded config hload
  have hprice := loaded_eq "price" (hsettings "price") rfl
  have hnested := loaded_eq "nested" (hsettings "nested") rfl
  have hlayers := loaded_eq "layers" (hsettings "layers") rfl
  exact ⟨hfile, habsolute, hdollar, config, hload, hprice, hnested, hlayers,
    hnone habsolute hdollar⟩

end EntityBroker.Config
