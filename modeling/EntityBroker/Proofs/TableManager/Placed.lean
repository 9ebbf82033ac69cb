import Mathlib
import EntityBroker.Program.Toml.Section
import EntityBroker.Proofs.Config.Loading
import EntityBroker.Proofs.TableManager.Resolution
import EntityBroker.Proofs.TableManager.Rows
import EntityBroker.Proofs.Utf8.Cut

/-!
# Paths beside the configuration

A table in the settings of a configuration can give an entity a path that begins with the
configuration's own directory. The directory becomes part of a row before the row is split, so the
entity gets that path only if the directory has no separator in it (`placed_iff_isCell`).
-/

namespace EntityBroker.TableManager

open Config (Reader directoryPlaceholder expand load Holds)

variable {entity traitId key suffix : String}

/-- The row that gives a property a path beside the configuration. -/
def placeRow (entity traitId key suffix : String) : String :=
  ",".intercalate [entity, traitId, key, directoryPlaceholder ++ suffix]

theorem expand_placeRow
    (hfree : ∀ cell ∈ [entity, traitId, key, suffix],
      ¬ directoryPlaceholder.toList <:+: cell.toList) (directory : String) :
    expand directory (placeRow entity traitId key suffix) =
      ",".intercalate [entity, traitId, key, directory ++ suffix] := by
  simp only [List.forall_mem_cons] at hfree
  obtain ⟨hentity, htrait, hkey, hsuffix, -⟩ := hfree
  rw [placeRow, Config.expand_intercalate]
  simp only [List.map_cons, List.map_nil, Config.expand_placeholder_append,
    Config.expand_of_not_infix, hentity, htrait, hkey, hsuffix, not_false_eq_true]

theorem applySettings_table (table : String) (session : Session) :
    let reply := manager.applySettings (Dict.ofList [("read_traits", .text table)]) session
      State.initial
    reply.result = .ok () ∧ reply.state.has .resolution = true ∧
      reply.state.entities = Store.applyAll Dict.empty (writesOfTable table) :=
  ⟨rfl, rfl, rfl⟩

theorem property?_table (table : String) :
    (Store.applyAll Dict.empty (writesOfTable table)).property? entity traitId key =
      ((writesOfTable table).filterMap (Write.valueFor? entity traitId key)).getLast? := by
  rw [Store.property?_applyAll, Store.property?, Dict.get?_empty, Option.bind_none, Option.or_none]

theorem isCell_of_property?_table {table text : String}
    (h : (Store.applyAll Dict.empty (writesOfTable table)).property? entity traitId key =
      some (.text text)) : IsCell text := by
  rw [property?_table] at h
  obtain ⟨w, hw, hvalue⟩ := List.mem_filterMap.mp (List.mem_of_getLast? h)
  rw [Write.valueFor?_eq_some] at hvalue
  exact isCell_of_mem_writesOfTable (hvalue ▸ hw)

theorem property?_row {text : String} (hkey : key ≠ "")
    (hcells : ∀ cell ∈ [entity, traitId, key, text], IsCell cell) :
    (Store.applyAll Dict.empty
      (writesOfTable (",".intercalate [entity, traitId, key, text]))).property? entity traitId key =
      some (valueOf text.toList) := by
  rw [property?_table, writesOfTable_row hkey hcells]
  simp [Write.valueFor?]

/-- A configuration with nothing but such a row loads, and an unused manager accepts its settings.
The entity then resolves to the path exactly if the directory could stand in a cell. -/
theorem placed_iff_isCell {read : Reader} {find : String → Found} {path directory : String}
    {identifier : String} (hkey : key ≠ "")
    (hcells : ∀ cell ∈ [entity, traitId, key, suffix],
      IsCell cell ∧ ¬ directoryPlaceholder.toList <:+: cell.toList)
    (habsolute : directory.startsWith "/" = true)
    (hfile : Holds read find path directory
      ⟨identifier, Dict.ofList [("read_traits", .text (placeRow entity traitId key suffix))]⟩) :
    ∃ config, load read find path = .ok config ∧ ∀ session,
      let reply := manager.applySettings config.settings session State.initial
      reply.result = .ok () ∧
        (Resolves reply.state entity traitId key (.text (directory ++ suffix)) ↔
          IsCell directory) := by
  have hload := Config.load_of_holds hfile (Config.infoOf_text ..)
  rw [expand_placeRow fun cell hcell => (hcells cell hcell).2] at hload
  refine ⟨_, hload, fun session => ?_⟩
  obtain ⟨hresult, hhas, hentities⟩ :=
    applySettings_table (",".intercalate [entity, traitId, key, directory ++ suffix]) session
  refine ⟨hresult, ?_⟩
  rw [resolves_iff, hentities]
  constructor
  · rintro ⟨-, hproperty⟩
    -- However the directory broke up the row, no text that comes from it has a separator.
    exact (isCell_append.mp (isCell_of_property?_table hproperty)).1
  · intro hdirectory
    have hrow : ∀ cell ∈ [entity, traitId, key, directory ++ suffix], IsCell cell := by
      simp only [List.forall_mem_cons] at hcells ⊢
      simp_all [isCell_append]
    have hstart : (directory ++ suffix).startsWith "/" = true := by
      rw [String.startsWith_string_iff] at habsolute ⊢
      rw [String.toList_append]
      exact List.prefix_append_of_prefix habsolute
    rw [property?_row hkey hrow, valueOf_of_startsWith hstart]
    exact ⟨hhas, rfl⟩

-- ---------------------------------------------------------------- a picture of the cat

/-- A configuration file with the picture of the cat beside it. -/
def catConfiguration : String :=
  "[manager.settings]\n" ++
    "read_traits = 'simple://cat,locatable,location,${config_dir}/cat.png'\n"

def catSettings : Dict Toml.Value :=
  Dict.ofList
    [("read_traits", .text (placeRow "simple://cat" "locatable" "location" "/cat.png"))]

theorem holds_catConfiguration (path directory : String) :
    Holds Toml.readSection (fun _ => .file (Utf8.encode catConfiguration) directory) path directory
      ⟨"", catSettings⟩ :=
  have hread : Toml.readSection catConfiguration = .ok ⟨"", catSettings⟩ := by cbv
  ⟨_, _, rfl, Utf8.decode_encode _, hread⟩

theorem isCell_catCells :
    ∀ cell ∈ ["simple://cat", "locatable", "location", "/cat.png"],
      IsCell cell ∧ ¬ directoryPlaceholder.toList <:+: cell.toList := by
  have hplain : ∀ cell ∈ ["simple://cat", "locatable", "location", "/cat.png"],
      IsCell cell ∧ '$' ∉ cell.toList := by decide
  intro cell hcell
  refine (hplain cell hcell).imp_right fun hfree hinside => hfree (hinside.subset ?_)
  decide

/-- Beside a configuration in an ordinary directory the picture is found. -/
theorem cat_placed :
    let find := fun _ : String => Found.file (Utf8.encode catConfiguration) "/assets"
    "location" ≠ "" ∧
      (∀ cell ∈ ["simple://cat", "locatable", "location", "/cat.png"],
        IsCell cell ∧ ¬ directoryPlaceholder.toList <:+: cell.toList) ∧
      "/assets".startsWith "/" = true ∧
      Holds Toml.readSection find "/assets/broker.toml" "/assets" ⟨"", catSettings⟩ ∧
      ∃ config, load Toml.readSection find "/assets/broker.toml" = .ok config ∧ ∀ session,
        Resolves (manager.applySettings config.settings session State.initial).state
          "simple://cat" "locatable" "location" (.text ("/assets" ++ "/cat.png")) := by
  intro find
  have hkey : "location" ≠ "" := by decide
  have habsolute : "/assets".startsWith "/" = true := String.startsWith_string_iff.mpr (by decide)
  have hfile : Holds Toml.readSection find "/assets/broker.toml" "/assets" ⟨"", catSettings⟩ :=
    holds_catConfiguration ..
  obtain ⟨config, hload, hinit⟩ := placed_iff_isCell hkey isCell_catCells habsolute hfile
  refine ⟨hkey, isCell_catCells, habsolute, hfile, config, hload, fun session => ?_⟩
  exact (hinit session).2.mpr (by decide)

/-- Beside one in a directory with a comma in its name, the path ends where the name has the
comma. -/
theorem comma_ends_path :
    let find := fun _ : String => Found.file (Utf8.encode catConfiguration) "/a,b"
    "location" ≠ "" ∧
      (∀ cell ∈ ["simple://cat", "locatable", "location", "/cat.png"],
        IsCell cell ∧ ¬ directoryPlaceholder.toList <:+: cell.toList) ∧
      "/a,b".startsWith "/" = true ∧
      Holds Toml.readSection find "/a,b/broker.toml" "/a,b" ⟨"", catSettings⟩ ∧
      ∃ config, load Toml.readSection find "/a,b/broker.toml" = .ok config ∧ ∀ session,
        let reply := manager.applySettings config.settings session State.initial
        reply.result = .ok () ∧
          Resolves reply.state "simple://cat" "locatable" "location" (.text "/a") ∧
          ¬ Resolves reply.state "simple://cat" "locatable" "location"
            (.text ("/a,b" ++ "/cat.png")) := by
  intro find
  let row := placeRow "simple://cat" "locatable" "location" "/cat.png"
  have habsolute : "/a,b".startsWith "/" = true := String.startsWith_string_iff.mpr (by decide)
  have hfile : Holds Toml.readSection find "/a,b/broker.toml" "/a,b" ⟨"", catSettings⟩ :=
    holds_catConfiguration ..
  have hload := Config.load_of_holds hfile (Config.infoOf_text ..)
  refine ⟨by decide, isCell_catCells, habsolute, hfile, _, hload, fun session => ?_⟩
  obtain ⟨hresult, hhas, hentities⟩ := applySettings_table (expand "/a,b" row) session
  have hproperty : (Store.applyAll Dict.empty (writesOfTable (expand "/a,b" row))).property?
      "simple://cat" "locatable" "location" = some (.text "/a") := by decide
  refine ⟨hresult, ?_⟩
  rw [resolves_iff, resolves_iff, hentities, hproperty]
  exact ⟨⟨hhas, rfl⟩, fun h => absurd h.2 (by decide)⟩

end EntityBroker.TableManager
