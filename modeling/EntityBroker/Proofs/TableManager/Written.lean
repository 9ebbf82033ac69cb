import Mathlib.Data.List.Forall2
import EntityBroker.Proofs.TableManager.Table

/-!
# What tables and data write

What a table stands for is said by taking its text apart into rows and these into cells
(`TableWrites`), what data stands for by what it has for its reference (`DataWrites`). Neither goes
by the way in which writes are made: the writes of a table are the only ones that fit it
(`tableWrites_iff`), and all writes that fit data make the same of a store
(`PairsWrite.applyAll_eq`).
-/

namespace EntityBroker.TableManager

-- ---------------------------------------------------------------- tables

/-- The rows of a table. A row ends with a line feed, and a carriage return before that belongs to
the line end; text after the last line end is a row as it stands. -/
inductive HasRows : String → List String → Prop
  | none : HasRows "" []
  | last {row : String} (hline : '\n' ∉ row.toList) (hne : row ≠ "") : HasRows row [row]
  | fed {row rest : String} {rows : List String} (hrow : IsRow row) (hrest : HasRows rest rows) :
      HasRows (row ++ "\n" ++ rest) (row :: rows)
  | returned {row rest : String} {rows : List String} (hline : '\n' ∉ row.toList)
      (hrest : HasRows rest rows) : HasRows (row ++ "\r\n" ++ rest) (row :: rows)

/-- What a row writes: a property if its third cell is not empty, else a trait. -/
inductive RowWrites (row : String) : Write → Prop
  | traitOf {cells : List String} (hcells : Pieces row cells) (hkey : cellAt cells 2 = "") :
      RowWrites row (.traitOf (cellAt cells 0) (cellAt cells 1))
  | property {cells : List String} (hcells : Pieces row cells) (hkey : cellAt cells 2 ≠ "") :
      RowWrites row (.property (cellAt cells 0) (cellAt cells 1) (cellAt cells 2)
        (valueOf (cellAt cells 3).toList))

/-- The writes of a table, one for each row in order. -/
def TableWrites (table : String) (writes : List Write) : Prop :=
  ∃ rows, HasRows table rows ∧ List.Forall₂ RowWrites rows writes

section
variable {table row : String} {rows : List String} {w : Write} {writes : List Write}

theorem HasRows.lines_eq (h : HasRows table rows) : lines table = rows.map String.toList := by
  induction h with
  | none => rfl
  | last hline hne => exact lines_of_not_mem hline hne
  | fed hrow _ ih =>
    rw [lines_row_append hrow (.inl rfl), ih]
    rfl
  | returned hline _ ih =>
    rw [lines_ended_append (.inr rfl), lines_returned hline, ih]
    rfl

/-- A character before a table stands before its first row, unless it is a line end of its own. -/
theorem HasRows.cons (h : HasRows table rows) (c : Char) :
    ∃ rows', HasRows (String.singleton c ++ table) rows' := by
  by_cases hc : c = '\n'
  · subst hc
    have hrow : IsRow "" := ⟨by decide, by decide⟩
    exact ⟨_, .fed hrow h⟩
  · have hmem : ∀ {row : String}, '\n' ∉ row.toList →
        '\n' ∉ (String.singleton c ++ row).toList := by
      intro row hline
      simpa [hline] using fun heq => hc heq.symm
    cases h with
    | none => exact ⟨_, .last (hmem (by decide)) (by simp [← String.toList_eq_nil_iff])⟩
    | last hline hne => exact ⟨_, .last (hmem hline) (by simp [← String.toList_eq_nil_iff])⟩
    | returned hline hrest =>
      rw [← String.append_assoc, ← String.append_assoc]
      exact ⟨_, .returned (hmem hline) hrest⟩
    | @fed row rest rows hrow hrest =>
      -- a carriage return before an empty row joins the line end
      by_cases hreturn : row = "" ∧ c = '\r'
      · obtain ⟨rfl, rfl⟩ := hreturn
        have hline : '\n' ∉ "".toList := by decide
        exact ⟨_, .returned hline hrest⟩
      · have hlast : (String.singleton c ++ row).toList.getLast? ≠ some '\r' := by
          cases hlist : row.toList with
          | nil =>
            have hne : c ≠ '\r' := fun heq => hreturn ⟨String.toList_eq_nil_iff.mp hlist, heq⟩
            simpa [hlist] using hne
          | cons d others => simpa [hlist] using hlist ▸ hrow.2
        rw [← String.append_assoc, ← String.append_assoc]
        exact ⟨_, .fed ⟨hmem hrow.1, hlast⟩ hrest⟩

theorem exists_hasRows (table : String) : ∃ rows, HasRows table rows := by
  have hchars : ∀ cs : List Char, ∃ rows, HasRows (String.ofList cs) rows := by
    intro cs
    induction cs with
    | nil => exact ⟨[], .none⟩
    | cons c rest ih =>
      obtain ⟨rows, hrows⟩ := ih
      have hcons : String.ofList (c :: rest) = String.singleton c ++ String.ofList rest := by
        simp
      exact hcons ▸ hrows.cons c
  simpa using hchars table.toList

theorem rowWrites_iff : RowWrites row w ↔ w = writeOfRow row.toList := by
  constructor
  · intro h
    cases h with
    | traitOf hcells hkey => rw [writeOfRow_pieces hcells, if_pos hkey]
    | property hcells hkey => rw [writeOfRow_pieces hcells, if_neg hkey]
  · rintro rfl
    obtain ⟨cells, hcells⟩ := exists_pieces row
    rw [writeOfRow_pieces hcells]
    split
    · exact .traitOf hcells ‹_›
    · exact .property hcells ‹_›

theorem tableWrites_iff : TableWrites table writes ↔ writes = writesOfTable table := by
  have hrows : ∀ rows, HasRows table rows →
      (List.Forall₂ RowWrites rows writes ↔ writes = writesOfTable table) := by
    intro rows h
    have hrow : RowWrites = fun row w => writeOfRow row.toList = w := by
      funext row w
      exact propext (rowWrites_iff.trans eq_comm)
    rw [writesOfTable, h.lines_eq, List.map_map, hrow, ← List.forall₂_map_left_iff,
      List.forall₂_eq_eq_eq]
    exact eq_comm
  constructor
  · rintro ⟨rows, h, hwrites⟩
    exact (hrows rows h).mp hwrites
  · intro hwrites
    obtain ⟨rows, h⟩ := exists_hasRows table
    exact ⟨rows, h, (hrows rows h).mpr hwrites⟩

end

-- ---------------------------------------------------------------- data

/-- A write that data stands for: of the reference itself, of a trait that the data has, or of a
property that it has, with its value. -/
inductive DataWrite (reference : EntityReference) (data : TraitsData) : Write → Prop
  | entity : DataWrite reference data (.entity reference.text)
  | traitOf {traitId : String} (h : data.has traitId = true) :
      DataWrite reference data (.traitOf reference.text traitId)
  | property {traitId key : String} {value : Value} (h : data.get? traitId key = some value) :
      DataWrite reference data (.property reference.text traitId key value)

/-- The writes of data, in any order: no two of them give different values to one property. -/
def DataWrites (pair : EntityReference × TraitsData) (writes : List Write) : Prop :=
  ∀ w, w ∈ writes ↔ DataWrite pair.1 pair.2 w

/-- The writes of pairs of a reference and data, pair after pair. -/
def PairsWrite (pairs : List (EntityReference × TraitsData)) (writes : List Write) : Prop :=
  ∃ parts, List.Forall₂ DataWrites pairs parts ∧ writes = parts.flatten

section
variable {pair : EntityReference × TraitsData} {pairs : List (EntityReference × TraitsData)}
variable {writes others : List Write}

theorem dataWrites_writesOfData (pair : EntityReference × TraitsData) :
    DataWrites pair (writesOfData pair.1 pair.2) := by
  intro w
  rw [mem_writesOfData]
  constructor
  · rintro (rfl | ⟨t, ht, rfl⟩ | ⟨t, k, v, hvalue, rfl⟩)
    · exact .entity
    · exact .traitOf ht
    · exact .property hvalue
  · rintro (_ | ht | hvalue)
    · exact .inl rfl
    · exact .inr (.inl ⟨_, ht, rfl⟩)
    · exact .inr (.inr ⟨_, _, _, hvalue, rfl⟩)

theorem DataWrites.last_value (h : DataWrites pair writes) (entity traitId key : String) :
    (writes.filterMap (Write.valueFor? entity traitId key)).getLast? =
      if pair.1.text = entity then pair.2.get? traitId key else none := by
  have hmem : ∀ value, value ∈ writes.filterMap (Write.valueFor? entity traitId key) ↔
      pair.1.text = entity ∧ pair.2.get? traitId key = some value := by
    intro value
    simp only [List.mem_filterMap, Write.valueFor?_eq_some, exists_eq_right, h _]
    constructor
    · intro hwrite
      cases hwrite with
      | property hvalue => exact ⟨rfl, hvalue⟩
    · rintro ⟨rfl, hvalue⟩
      exact .property hvalue
  cases hlast : (writes.filterMap (Write.valueFor? entity traitId key)).getLast? with
  | some value =>
    obtain ⟨hentity, hvalue⟩ := (hmem value).mp (List.mem_of_getLast? hlast)
    rw [if_pos hentity, hvalue]
  | none =>
    rw [List.getLast?_eq_none_iff] at hlast
    have hnone : ∀ value, ¬(pair.1.text = entity ∧ pair.2.get? traitId key = some value) := by
      simpa [hlast] using hmem
    by_cases hentity : pair.1.text = entity
    · rw [if_pos hentity]
      exact (Option.eq_none_iff_forall_ne_some.mpr fun value hv => hnone value ⟨hentity, hv⟩).symm
    · rw [if_neg hentity]

theorem DataWrites.applyAll_eq (h : DataWrites pair writes) (hother : DataWrites pair others)
    (store : Store) : store.applyAll writes = store.applyAll others := by
  have hmem : ∀ w, w ∈ writes ↔ w ∈ others := fun w => (h w).trans (hother w).symm
  refine Store.ext (fun e => ?_) (fun e t => ?_) fun e t k => ?_
  · simp only [Store.contains_applyAll, hmem]
  · simp only [Store.carries_applyAll, hmem]
  · rw [Store.property?_applyAll, Store.property?_applyAll, h.last_value, hother.last_value]

theorem pairsWrite_writesOfData (pairs : List (EntityReference × TraitsData)) :
    PairsWrite pairs (pairs.flatMap fun (reference, data) => writesOfData reference data) := by
  refine ⟨pairs.map fun (reference, data) => writesOfData reference data, ?_, rfl⟩
  rw [List.forall₂_map_right_iff, List.forall₂_same]
  exact fun pair _ => dataWrites_writesOfData pair

theorem PairsWrite.applyAll_eq (h : PairsWrite pairs writes) (store : Store) :
    store.applyAll writes =
      store.applyAll (pairs.flatMap fun (reference, data) => writesOfData reference data) := by
  obtain ⟨parts, hparts, rfl⟩ := h
  induction hparts generalizing store with
  | nil => rfl
  | cons hpart _ ih =>
    rw [List.flatten_cons, List.flatMap_cons, Store.applyAll_append, Store.applyAll_append,
      hpart.applyAll_eq (dataWrites_writesOfData _), ih]

end

end EntityBroker.TableManager
