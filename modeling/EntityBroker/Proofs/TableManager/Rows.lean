import EntityBroker.Proofs.TableManager.Writes

/-!
# Rows and cells

A table is read by splitting alone, its text into lines and each line into cells. Cells that are
joined come back as they were if no separator is in them (`writesOfTable_row`). As nothing can be
quoted, no text in a table ever has a separator in it (`isCell_of_mem_writesOfTable`).
-/

namespace EntityBroker.TableManager

/-- A text that can stand in a cell. -/
def IsCell (text : String) : Prop := ',' ∉ text.toList ∧ '\n' ∉ text.toList

instance (text : String) : Decidable (IsCell text) := inferInstanceAs (Decidable (_ ∧ _))

theorem isCell_append {first second : String} :
    IsCell (first ++ second) ↔ IsCell first ∧ IsCell second := by
  simp only [IsCell, String.toList_append, List.mem_append, not_or]
  exact and_and_and_comm

-- ---------------------------------------------------------------- splitting

theorem splitOn_eq (separator : Char) (text : List Char) :
    splitOn separator text = text.splitOn separator := by
  induction text with
  | nil => rfl
  | cons c rest ih =>
    rw [splitOn, ih, List.splitOn_cons_eq_if_modifyHead]
    by_cases hc : c = separator
    · simp [hc]
    · cases hrest : rest.splitOn separator with
      | nil => exact absurd hrest (List.splitOn_ne_nil separator rest)
      | cons piece pieces => simp [hc]

theorem splitOn_of_not_mem {separator : Char} {text : List Char} (h : separator ∉ text) :
    splitOn separator text = [text] := by
  rw [splitOn_eq, List.splitOn_eq_singleton h]

/-- What is joined by commas comes apart at them. -/
theorem splitOn_joined {cells : List String} (hne : cells ≠ [])
    (hcells : ∀ cell ∈ cells, ',' ∉ cell.toList) :
    splitOn ',' (",".intercalate cells).toList = cells.map String.toList := by
  rw [splitOn_eq, String.toList_intercalate]
  exact List.splitOn_intercalate ',' (by simpa using hcells) (by simpa using hne)

theorem of_mem_splitOn {separator c : Char} {text piece : List Char}
    (h : piece ∈ splitOn separator text) (hc : c ∈ piece) : c ≠ separator ∧ c ∈ text := by
  induction text generalizing piece with
  | nil =>
    cases List.mem_singleton.mp h
    cases hc
  | cons d rest ih =>
    rw [splitOn] at h
    by_cases hd : d = separator
    · rw [if_pos hd] at h
      rcases List.mem_cons.mp h with rfl | h
      · cases hc
      · exact (ih h hc).imp_right (List.mem_cons_of_mem d)
    · rw [if_neg hd] at h
      cases hrest : splitOn separator rest with
      | nil => exact absurd (splitOn_eq .. ▸ hrest) (List.splitOn_ne_nil separator rest)
      | cons first others =>
        rw [hrest] at h ih
        rcases List.mem_cons.mp h with rfl | h
        · rcases List.mem_cons.mp hc with rfl | hc
          · exact ⟨hd, List.mem_cons_self ..⟩
          · exact (ih (List.mem_cons_self ..) hc).imp_right (List.mem_cons_of_mem d)
        · exact (ih (List.mem_cons_of_mem first h) hc).imp_right (List.mem_cons_of_mem d)

-- ---------------------------------------------------------------- lines

theorem mem_linesOf {pieces : List (List Char)} {row : List Char} (h : row ∈ linesOf pieces) :
    ∃ piece ∈ pieces, row ⊆ piece := by
  fun_induction linesOf pieces with
  | case1 => cases h
  | case2 => cases h
  | case3 last _ => exact ⟨last, by simp, by simp [List.mem_singleton.mp h]⟩
  | case4 line rest _ ih =>
    rcases List.mem_cons.mp h with rfl | h
    · refine ⟨line, List.mem_cons_self .., ?_⟩
      rw [dropReturn]
      split
      · exact List.dropLast_subset line
      · exact List.Subset.refl line
    · obtain ⟨piece, hpiece, hrow⟩ := ih h
      exact ⟨piece, List.mem_cons_of_mem line hpiece, hrow⟩

theorem not_mem_of_mem_lines {table : String} {row : List Char} (h : row ∈ lines table) :
    '\n' ∉ row := by
  intro hc
  obtain ⟨piece, hpiece, hrow⟩ := mem_linesOf h
  exact (of_mem_splitOn hpiece (hrow hc)).1 rfl

theorem lines_of_not_mem {table : String} (h : '\n' ∉ table.toList) (hne : table ≠ "") :
    lines table = [table.toList] := by
  rw [lines, splitOn_of_not_mem h, linesOf, if_neg (mt String.toList_eq_nil_iff.mp hne)]

-- ---------------------------------------------------------------- values in cells

theorem toList_of_valueOf_eq {text : List Char} {s : String} (h : valueOf text = .text s) :
    s.toList = text := by
  rw [valueOf] at h
  split at h
  · cases h
  split at h
  · cases h
  split at h
  · cases h
  split at h
  · cases h
  obtain rfl := Value.text.inj h
  exact String.toList_ofList

/-- A path from the top is never taken for a number. -/
theorem valueOf_of_startsWith {text : String} (h : text.startsWith "/" = true) :
    valueOf text.toList = .text text := by
  obtain ⟨rest, hrest⟩ := String.startsWith_string_iff.mp h
  obtain rfl : String.ofList ('/' :: rest) = text :=
    String.toList_inj.mp (String.toList_ofList.trans hrest)
  have hint : parseInt? ('/' :: rest) = none := by simp [parseInt?, Decimal.splitSign]
  have hdigits : Decimal.spanDigits ('/' :: rest) = ([], '/' :: rest) := rfl
  have hfloat : parseFinite? ('/' :: rest) = none := by
    simp [parseFinite?, Decimal.parse?, Decimal.splitSign, hdigits, Decimal.spanFraction]
  simp [valueOf, hint, hfloat]

/-- A missing cell reads as the empty text. -/
theorem mem_cell {row : List Char} {c : Char} {i : Nat} (h : c ∈ (splitOn ',' row).getD i []) :
    c ≠ ',' ∧ c ∈ row := by
  rw [List.getD_eq_getElem?_getD] at h
  cases hcell : (splitOn ',' row)[i]? with
  | none => simp [hcell] at h
  | some cell =>
    rw [hcell, Option.getD_some] at h
    exact of_mem_splitOn (List.mem_of_getElem? hcell) h

theorem isCell_of_mem_writesOfTable {table entity traitId key text : String}
    (h : Write.property entity traitId key (.text text) ∈ writesOfTable table) : IsCell text := by
  obtain ⟨row, hrow, hwrite⟩ := List.mem_map.mp h
  rw [writeOfRow] at hwrite
  split at hwrite
  · cases hwrite
  · have hvalue := (Write.property.inj hwrite).2.2.2
    have hcell : ∀ c ∈ text.toList, c ≠ ',' ∧ c ∈ row := by
      intro c hc
      rw [toList_of_valueOf_eq hvalue] at hc
      exact mem_cell hc
    exact ⟨fun hc => (hcell _ hc).1 rfl, fun hc => not_mem_of_mem_lines hrow (hcell _ hc).2⟩

-- ---------------------------------------------------------------- one row

theorem writeOfRow_joined {entity traitId key text : String} (hkey : key ≠ "")
    (hcells : ∀ cell ∈ [entity, traitId, key, text], ',' ∉ cell.toList) :
    writeOfRow (",".intercalate [entity, traitId, key, text]).toList =
      .property entity traitId key (valueOf text.toList) := by
  have hne : key.toList ≠ [] := mt String.toList_eq_nil_iff.mp hkey
  rw [writeOfRow, splitOn_joined (List.cons_ne_nil _ _) hcells]
  simp [hne]

theorem writesOfTable_row {entity traitId key text : String} (hkey : key ≠ "")
    (hcells : ∀ cell ∈ [entity, traitId, key, text], IsCell cell) :
    writesOfTable (",".intercalate [entity, traitId, key, text]) =
      [.property entity traitId key (valueOf text.toList)] := by
  have hline : '\n' ∉ (",".intercalate [entity, traitId, key, text]).toList := by
    simpa [not_or] using fun cell hcell => (hcells cell hcell).2
  have hne : ",".intercalate [entity, traitId, key, text] ≠ "" := by
    simp [← String.toList_eq_nil_iff]
  rw [writesOfTable, lines_of_not_mem hline hne, List.map_singleton,
    writeOfRow_joined hkey fun cell hcell => (hcells cell hcell).1]

end EntityBroker.TableManager
