import EntityBroker.Config

/-!
# What a loaded configuration holds

Putting the directory in place of the placeholder leaves a text alone that has no placeholder, and
goes through a row cell by cell, as the placeholder has no comma in it (`expand_intercalate`).
-/

namespace EntityBroker.Config

-- ---------------------------------------------------------------- replacing a pattern

section
variable {pattern replacement : List Char} {c : Char}

theorem replaceFrom_cons (first : Char) (rest : List Char) :
    replaceFrom pattern replacement 0 (first :: rest) =
      if pattern <+: first :: rest then
        replacement ++ replaceFrom pattern replacement (pattern.length - 1) rest
      else first :: replaceFrom pattern replacement 0 rest := by
  simp only [replaceFrom, List.isPrefixOf_iff_prefix]

theorem replaceFrom_skip (skip : Nat) (text : List Char) :
    replaceFrom pattern replacement skip text =
      replaceFrom pattern replacement 0 (text.drop skip) := by
  induction text generalizing skip with
  | nil => cases skip <;> rfl
  | cons first rest ih =>
    cases skip with
    | zero => rfl
    | succ skip => exact ih skip

theorem replaceFrom_of_not_infix {text : List Char} (h : ¬ pattern <:+: text) :
    replaceFrom pattern replacement 0 text = text := by
  induction text with
  | nil => rfl
  | cons first rest ih =>
    rw [List.infix_cons_iff, not_or] at h
    rw [replaceFrom_cons, if_neg h.1, ih h.2]

theorem replaceFrom_append (h : pattern ≠ []) (text : List Char) :
    replaceFrom pattern replacement 0 (pattern ++ text) =
      replacement ++ replaceFrom pattern replacement 0 text := by
  cases pattern with
  | nil => exact absurd rfl h
  | cons first others =>
    have hstart : first :: others <+: first :: (others ++ text) :=
      List.prefix_append (first :: others) text
    rw [List.cons_append, replaceFrom_cons, if_pos hstart, replaceFrom_skip, List.length_cons,
      Nat.add_sub_cancel, List.drop_left]

theorem prefix_append_cons (hc : c ∉ pattern) (before after : List Char) :
    pattern <+: before ++ c :: after ↔ pattern <+: before := by
  refine ⟨fun h => ?_, fun h => h.trans (List.prefix_append ..)⟩
  rcases List.prefix_or_prefix_of_prefix h (List.prefix_append ..) with hp | ⟨rest, rfl⟩
  · exact hp
  · rw [List.prefix_append_right_inj, List.prefix_cons_iff] at h
    rcases h with rfl | ⟨rest, rfl, -⟩
    · simp
    · exact absurd (by simp) hc

/-- No occurrence goes over a character that is not in the pattern. -/
theorem replaceFrom_append_cons (hne : pattern ≠ []) (hc : c ∉ pattern) {skip : Nat}
    {before : List Char} (hskip : skip ≤ before.length) (after : List Char) :
    replaceFrom pattern replacement skip (before ++ c :: after) =
      replaceFrom pattern replacement skip before ++
        c :: replaceFrom pattern replacement 0 after := by
  induction before generalizing skip with
  | nil =>
    obtain rfl : skip = 0 := Nat.le_zero.mp hskip
    have hstart : ¬ pattern <+: c :: after := by
      rw [← List.nil_append (c :: after), prefix_append_cons hc, List.prefix_nil]
      exact hne
    rw [List.nil_append, replaceFrom_cons, if_neg hstart]
    rfl
  | cons first rest ih =>
    cases skip with
    | succ skip => exact ih (Nat.le_of_succ_le_succ hskip)
    | zero =>
      have hstart : pattern <+: first :: (rest ++ c :: after) ↔ pattern <+: first :: rest :=
        prefix_append_cons hc (first :: rest) after
      rw [List.cons_append, replaceFrom_cons, replaceFrom_cons]
      by_cases hp : pattern <+: first :: rest
      · -- The occurrence ends before `c`, so what is left to skip of it lies within `rest`.
        have hlength : pattern.length - 1 ≤ rest.length := Nat.sub_le_of_le_add hp.length_le
        rw [if_pos hp, if_pos (hstart.mpr hp), ih hlength, List.append_assoc]
      · rw [if_neg hp, if_neg (mt hstart.mp hp), ih (Nat.zero_le _), List.cons_append]

theorem replaceFrom_intercalate (hne : pattern ≠ []) (hc : c ∉ pattern)
    (pieces : List (List Char)) :
    replaceFrom pattern replacement 0 ([c].intercalate pieces) =
      [c].intercalate (pieces.map (replaceFrom pattern replacement 0)) := by
  induction pieces with
  | nil => rfl
  | cons piece rest ih =>
    cases rest with
    | nil => simp
    | cons next rest =>
      simp only [List.map_cons, List.intercalate_cons_cons] at ih ⊢
      rw [List.append_assoc, List.singleton_append,
        replaceFrom_append_cons hne hc (Nat.zero_le _), ih]
      simp

end

-- ---------------------------------------------------------------- the placeholder

theorem toList_expand (directory text : String) :
    (expand directory text).toList =
      replaceFrom directoryPlaceholder.toList directory.toList 0 text.toList :=
  String.toList_ofList

theorem expand_of_not_infix {text : String}
    (h : ¬ directoryPlaceholder.toList <:+: text.toList) (directory : String) :
    expand directory text = text := by
  rw [← String.toList_inj, toList_expand, replaceFrom_of_not_infix h]

theorem expand_placeholder_append (directory text : String) :
    expand directory (directoryPlaceholder ++ text) = directory ++ expand directory text := by
  rw [← String.toList_inj, toList_expand, String.toList_append, replaceFrom_append (by decide),
    String.toList_append, toList_expand]

theorem expand_intercalate (directory : String) (cells : List String) :
    expand directory (",".intercalate cells) = ",".intercalate (cells.map (expand directory)) := by
  rw [← String.toList_inj, toList_expand, String.toList_intercalate, String.toList_intercalate]
  refine (replaceFrom_intercalate (by decide) (by decide) _).trans ?_
  rw [List.map_map, List.map_map]
  simp only [Function.comp_def, toList_expand]
  rfl

-- ---------------------------------------------------------------- loading

/-- What is found at a path is a file in the directory, and the reader finds the section in it. -/
def Holds (read : Reader) (find : String → Found) (path directory : String) (part : Section) :
    Prop :=
  ∃ content text, find path = .file content directory ∧ Utf8.decode content = .ok text ∧
    read text = .ok part

section
variable {read : Reader} {find : String → Found} {path directory : String} {part : Section}

theorem load_eq_of_holds (h : Holds read find path directory part) :
    load read find path =
      ((infoOf directory part.settings).map (⟨part.identifier, ·⟩)).mapError Fault.toError := by
  obtain ⟨content, text, hfind, hdecode, hread⟩ := h
  simp only [load, hfind, ofFound, hdecode, ofText, hread]

theorem load_of_holds {info : Info} (h : Holds read find path directory part)
    (hinfo : infoOf directory part.settings = .ok info) :
    load read find path = .ok ⟨part.identifier, info⟩ := by
  rw [load_eq_of_holds h, hinfo]
  rfl

end

theorem infoOf_text (directory key text : String) :
    infoOf directory (Dict.ofList [(key, .text text)]) =
      .ok (Dict.ofList [(key, .text (expand directory text))]) := rfl

end EntityBroker.Config
