import EntityBroker.Proofs.TableManager.Names
import EntityBroker.Proofs.TableManager.Replay

/-!
# Tables row by row

Loading a table goes through its rows in order (`loaded_by_rows`). A text that ends with its line
can be loaded before the text that follows it. Rows that are put together with line ends of either
kind come apart as they were, so the store afterwards is the one that the rows lead to one by one;
what a row does is said by look-ups in the store before and after it.
-/

namespace EntityBroker.TableManager

-- ---------------------------------------------------------------- lines

theorem splitOn_append (separator : Char) (before rest : List Char) :
    splitOn separator (before ++ separator :: rest) =
      splitOn separator before ++ splitOn separator rest := by
  simp only [splitOn_eq, List.splitOn_append_cons_self]

theorem linesOf_append (first : List (List Char)) {rest : List (List Char)} (hrest : rest ≠ []) :
    linesOf (first ++ rest) = first.map dropReturn ++ linesOf rest := by
  induction first with
  | nil => rfl
  | cons line others ih => simp [linesOf, hrest, ih]

theorem lines_newline (before : String) :
    lines (before ++ "\n") = (splitOn '\n' before.toList).map dropReturn := by
  have hlast : linesOf [[]] = [] := rfl
  simp [lines, splitOn_append, linesOf_append, hlast, splitOn]

/-- A line feed ends its line, so what follows it is read apart. -/
theorem lines_newline_append (before rest : String) :
    lines (before ++ "\n" ++ rest) = lines (before ++ "\n") ++ lines rest := by
  have hne : splitOn '\n' rest.toList ≠ [] := by
    simp [splitOn_eq, List.splitOn_ne_nil]
  rw [lines_newline]
  simp [lines, splitOn_append, linesOf_append, hne]

def IsLineEnd (lineEnd : String) : Prop := lineEnd = "\n" ∨ lineEnd = "\r\n"

/-- A text that can stand in a line of its own and be read back. -/
def IsRow (row : String) : Prop := '\n' ∉ row.toList ∧ row.toList.getLast? ≠ some '\r'

section
variable {row lineEnd : String} {rows : List String}

theorem lines_returned (hline : '\n' ∉ row.toList) : lines (row ++ "\r\n") = [row.toList] := by
  have hcrlf : row ++ "\r\n" = row ++ "\r" ++ "\n" := by simp [← String.toList_inj]
  have hcr : '\n' ∉ (row ++ "\r").toList := by simp [hline]
  rw [hcrlf, lines_newline, splitOn_of_not_mem hcr]
  simp [dropReturn]

theorem lines_row (hrow : IsRow row) (hend : IsLineEnd lineEnd) :
    lines (row ++ lineEnd) = [row.toList] := by
  obtain ⟨hline, hreturn⟩ := hrow
  rcases hend with rfl | rfl
  · simp [lines_newline, splitOn_of_not_mem hline, dropReturn, hreturn]
  · exact lines_returned hline

theorem lines_ended_append (hend : IsLineEnd lineEnd) (row rest : String) :
    lines (row ++ lineEnd ++ rest) = lines (row ++ lineEnd) ++ lines rest := by
  have hnewline : ∃ before, row ++ lineEnd = before ++ "\n" := by
    rcases hend with rfl | rfl
    · exact ⟨row, rfl⟩
    · exact ⟨row ++ "\r", by simp [← String.toList_inj]⟩
  obtain ⟨before, hbefore⟩ := hnewline
  rw [hbefore, lines_newline_append]

theorem lines_row_append (hrow : IsRow row) (hend : IsLineEnd lineEnd) (rest : String) :
    lines (row ++ lineEnd ++ rest) = row.toList :: lines rest := by
  rw [lines_ended_append hend, lines_row hrow hend]
  rfl

/-- Rows with a line end between two of them are read back if the last one is not empty. -/
theorem lines_joined (hrows : ∀ row ∈ rows, IsRow row) (hend : IsLineEnd lineEnd)
    (hlast : ∀ last ∈ rows.getLast?, last ≠ "") :
    lines (lineEnd.intercalate rows) = rows.map String.toList := by
  induction rows with
  | nil => rfl
  | cons row rest ih =>
    obtain ⟨hrow, hrest⟩ := List.forall_mem_cons.mp hrows
    cases rest with
    | nil =>
      have hne : row ≠ "" := hlast row rfl
      rw [String.intercalate_singleton, lines_of_not_mem hrow.1 hne]
      rfl
    | cons second others =>
      have hlast' : ∀ last ∈ (second :: others).getLast?, last ≠ "" := by
        simpa [List.getLast?_cons_cons] using hlast
      rw [String.intercalate_cons_of_ne_nil (List.cons_ne_nil _ _), lines_row_append hrow hend,
        ih hrest hlast']
      rfl

theorem lines_ended (hrows : ∀ row ∈ rows, IsRow row) (hend : IsLineEnd lineEnd)
    (hne : rows ≠ []) :
    lines (lineEnd.intercalate rows ++ lineEnd) = rows.map String.toList := by
  induction rows with
  | nil => exact absurd rfl hne
  | cons row rest ih =>
    obtain ⟨hrow, hrest⟩ := List.forall_mem_cons.mp hrows
    cases rest with
    | nil => exact String.intercalate_singleton ▸ lines_row hrow hend
    | cons second others =>
      rw [String.intercalate_cons_of_ne_nil (List.cons_ne_nil _ _), String.append_assoc,
        lines_row_append hrow hend, ih hrest (List.cons_ne_nil _ _)]
      rfl

end

-- ---------------------------------------------------------------- what a row does

/-- The text of a cell; a missing cell is empty. -/
def cellAt (cells : List String) (i : Nat) : String := cells.getD i ""

/-- What the cells of a row do to a store. -/
structure RowApplied (cells : List String) (before after : Store) : Prop where
  entities : ∀ entity, after.contains entity = true ↔
    cellAt cells 0 = entity ∨ before.contains entity = true
  traits : ∀ entity traitId, after.Carries entity traitId ↔
    cellAt cells 0 = entity ∧ cellAt cells 1 = traitId ∨ before.Carries entity traitId
  properties : ∀ entity traitId key, after.property? entity traitId key =
    if cellAt cells 2 ≠ "" ∧ cellAt cells 0 = entity ∧ cellAt cells 1 = traitId ∧
        cellAt cells 2 = key
    then some (valueOf (cellAt cells 3).toList) else before.property? entity traitId key

/-- Rows that are applied in order, each by its cells. -/
inductive RowsApplied : List String → Store → Store → Prop
  | nil (store : Store) : RowsApplied [] store store
  | cons {row : String} {rest : List String} {cells : List String} {before middle after : Store}
      (hcells : Pieces row cells) (hrow : RowApplied cells before middle)
      (hrest : RowsApplied rest middle after) : RowsApplied (row :: rest) before after

section
variable {row : String} {cells rows : List String} {before after other : Store}

theorem writeOfRow_pieces (h : Pieces row cells) :
    writeOfRow row.toList =
      if cellAt cells 2 = "" then .traitOf (cellAt cells 0) (cellAt cells 1)
      else .property (cellAt cells 0) (cellAt cells 1) (cellAt cells 2)
        (valueOf (cellAt cells 3).toList) := by
  have hcell : ∀ i, String.ofList ((splitOn ',' row.toList).getD i []) = cellAt cells i := by
    intro i
    rw [pieces_iff.mp h, cellAt, List.getD_eq_getElem?_getD, List.getD_eq_getElem?_getD]
    cases hi : (splitOn ',' row.toList)[i]? <;> simp [hi]
  have hlist : ∀ i, (splitOn ',' row.toList).getD i [] = (cellAt cells i).toList := by
    intro i
    rw [← hcell, String.toList_ofList]
  simp only [writeOfRow, hlist, String.ofList_toList, String.toList_eq_nil_iff]

theorem rowApplied_apply (h : Pieces row cells) (store : Store) :
    RowApplied cells store (store.apply (writeOfRow row.toList)) := by
  rw [writeOfRow_pieces h]
  by_cases hkey : cellAt cells 2 = ""
  · rw [if_pos hkey]
    refine ⟨?_, ?_, ?_⟩
    · exact Store.contains_apply store _
    · exact Store.carries_apply store _
    · intro entity traitId key
      simp [Store.property?_apply, Write.valueFor?, hkey]
  · rw [if_neg hkey]
    refine ⟨?_, ?_, ?_⟩
    · exact Store.contains_apply store _
    · exact Store.carries_apply store _
    · intro entity traitId key
      rw [Store.property?_apply, Write.valueFor?]
      by_cases hplace : cellAt cells 0 = entity ∧ cellAt cells 1 = traitId ∧ cellAt cells 2 = key
      · obtain ⟨rfl, rfl, rfl⟩ := hplace
        simp [hkey]
      · simp [hplace]

theorem RowApplied.unique (h : RowApplied cells before after)
    (hother : RowApplied cells before other) : after = other := by
  refine Store.ext ?_ ?_ ?_
  · intro e
    rw [h.entities, hother.entities]
  · intro e t
    rw [h.traits, hother.traits]
  · intro e t k
    rw [h.properties, hother.properties]

theorem rowsApplied_iff :
    RowsApplied rows before after ↔
      after = before.applyAll (rows.map fun row => writeOfRow row.toList) := by
  constructor
  · intro h
    induction h with
    | nil => rfl
    | cons hcells hrow _ ih =>
      rw [ih, hrow.unique (rowApplied_apply hcells _)]
      rfl
  · rintro rfl
    induction rows generalizing before with
    | nil => exact .nil before
    | cons row rest ih =>
      obtain ⟨cells, hcells⟩ := exists_pieces row
      exact .cons hcells (rowApplied_apply hcells before) ih

end

/-- The store after a text that ends with its line and another text is the one after both in turn.
The store after rows that are put together as lines is the one that the rows lead to one by one,
with a line end after the last of them or, if it is not empty, without. -/
theorem loaded_by_rows :
    (∀ (store : Store) (first second : String),
      (first = "" ∨ ∃ before, first = before ++ "\n") →
      store.applyAll (writesOfTable (first ++ second)) =
        (store.applyAll (writesOfTable first)).applyAll (writesOfTable second)) ∧
    ∀ (rows : List String) (lineEnd : String), (∀ row ∈ rows, IsRow row) → IsLineEnd lineEnd →
      ∀ before after : Store,
      ((∀ last ∈ rows.getLast?, last ≠ "") →
        (after = before.applyAll (writesOfTable (lineEnd.intercalate rows)) ↔
          RowsApplied rows before after)) ∧
      (rows ≠ [] →
        (after = before.applyAll (writesOfTable (lineEnd.intercalate rows ++ lineEnd)) ↔
          RowsApplied rows before after)) := by
  constructor
  · rintro store first second (rfl | ⟨before, rfl⟩)
    · rw [String.empty_append]
      rfl
    · simp [writesOfTable, lines_newline_append, Store.applyAll_append]
  · intro rows lineEnd hrows hend before after
    have hmap : (rows.map String.toList).map writeOfRow =
        rows.map fun row => writeOfRow row.toList := List.map_map
    refine ⟨fun hlast => ?_, fun hne => ?_⟩
    · rw [writesOfTable, lines_joined hrows hend hlast, hmap, rowsApplied_iff]
    · rw [writesOfTable, lines_ended hrows hend hne, hmap, rowsApplied_iff]

/-- A carriage return belongs to a line end only if a line feed follows it. -/
example : lines "a\rb\r\nc\r" = ["a\rb".toList, "c\r".toList] := by decide

end EntityBroker.TableManager
