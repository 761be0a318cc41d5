import Ripple.Config.File
import Ripple.Proofs.Files.Disk
import Ripple.Proofs.Toml.Section

/-!
# Configuration files read back

Each section of a configuration is saved as a section of TOML (`Config.text_eq`). A text of some
sections of a configuration (`Config.Writes`) is read as the configuration with these sections and
with the standard ones in place of the others (`Config.ofText?_of_writes`). So what has been saved
is loaded, all of it or the sections that are kept (`load_of_save`).
-/

namespace Ripple

/-- A section of a configuration. -/
inductive ConfigSection where
  /-- Where the graph is stored. -/
  | storage
  /-- How far an analysis goes. -/
  | impact
  /-- How much a search returns. -/
  | search
deriving DecidableEq, Repr

namespace ConfigSection

/-- The name of a section. -/
def name : ConfigSection → String
  | storage => "storage"
  | impact => "impact"
  | search => "search"

theorem name_injective : Function.Injective name := by
  intro part part' h
  cases part <;> cases part' <;> first | rfl | exact absurd h (by decide)

theorem isBare_name (part : ConfigSection) : Toml.IsBare part.name.toList := by
  cases part <;> decide

end ConfigSection

namespace Config

variable {config standard : Config}

/-! ## Sections -/

/-- A section of a configuration as text. -/
def text (config : Config) : ConfigSection → List Char
  | .storage => config.storage.toToml
  | .impact => config.impact.toToml
  | .search => config.search.toToml

/-- The values of a section of a configuration, and how they are written. -/
def fields (config : Config) : ConfigSection → List Toml.Field
  | .storage =>
    [⟨"database_path".toList, Toml.Quoted.write config.storage.databasePath.toList,
        .string config.storage.databasePath⟩,
      ⟨"max_connections".toList, (toString config.storage.maxConnections.toNat).toList,
        .integer config.storage.maxConnections.toNat⟩]
  | .impact =>
    [⟨"max_depth".toList, (toString config.impact.maxDepth.toNat).toList,
      .integer config.impact.maxDepth.toNat⟩]
  | .search =>
    [⟨"default_limit".toList, (toString config.search.defaultLimit.toNat).toList,
      .integer config.search.defaultLimit.toNat⟩]

theorem text_eq (config : Config) (part : ConfigSection) :
    config.text part = Toml.Field.sectionText part.name.toList (config.fields part) := by
  cases part with
  | storage => exact (Toml.Field.sectionText_pair (by rfl) (by rfl)).symm
  | impact => exact (Toml.Field.sectionText_singleton (by rfl)).symm
  | search => exact (Toml.Field.sectionText_singleton (by rfl)).symm

/-- All values are read back, unless the limit of a search is too large. -/
theorem holds_of_mem_fields (hlimit : (config.search.defaultLimit.toNat : ℤ) ≤ Toml.maxInteger)
    {part : ConfigSection} {field : Toml.Field} (h : field ∈ config.fields part) :
    field.Holds := by
  have hnumber {n : ℕ} (hn : (n : ℤ) ≤ Toml.maxInteger) :
      Toml.Writes (toString n).toList (.integer n) := by
    rw [Nat.toString_eq_ofList_toDigits, String.toList_ofList]
    exact Toml.writes_toDigits hn
  have hword (n : UInt32) : (n.toNat : ℤ) ≤ Toml.maxInteger := by
    have hlt := n.toNat_lt
    rw [Toml.maxInteger]
    omega
  cases part with
  | storage =>
    rcases List.mem_pair.1 h with rfl | rfl
    · refine ⟨(by decide : Toml.IsBare "database_path".toList), ?_⟩
      simpa using Toml.writes_quoted config.storage.databasePath.toList
    · exact ⟨(by decide : Toml.IsBare "max_connections".toList), hnumber (hword _)⟩
  | impact =>
    obtain rfl := List.mem_singleton.1 h
    exact ⟨(by decide : Toml.IsBare "max_depth".toList), hnumber (hword _)⟩
  | search =>
    obtain rfl := List.mem_singleton.1 h
    exact ⟨(by decide : Toml.IsBare "default_limit".toList), hnumber hlimit⟩

/-- The keys of a section are different ones. -/
theorem nodup_keys (config : Config) (part : ConfigSection) :
    (((config.fields part).map Toml.Field.entry).map Prod.fst).Nodup := by
  cases part with
  | storage => simp [fields, Toml.Field.entry]
  | impact => simp [fields]
  | search => simp [fields]

/-- A section of a configuration as a value. -/
def toml (config : Config) (part : ConfigSection) : Toml :=
  .table ((config.fields part).map fun field => (String.ofList field.key, field.value))

/-! ## Texts of sections -/

/-- A text of some sections of a configuration in some order, with empty lines around them. -/
inductive Writes (config : Config) : List ConfigSection → List Char → Prop
  /-- No section. -/
  | nil : Writes config [] []
  /-- An empty line. -/
  | newline {parts cs} (h : Writes config parts cs) : Writes config parts ('\n' :: cs)
  /-- A section that does not come again. -/
  | cons {part parts cs} (hpart : part ∉ parts) (h : Writes config parts cs) :
    Writes config (part :: parts) (config.text part ++ cs)

/-- The tables of some sections are read. -/
theorem Writes.lines (hlimit : (config.search.defaultLimit.toNat : ℤ) ≤ Toml.maxInteger)
    {parts : List ConfigSection} {cs : List Char} (h : config.Writes parts cs) {r : Toml.Reading}
    (hnew : ∀ part ∈ parts, part.name ∉ r.root.map Prod.fst) {fuel : ℕ} (hfuel : cs.length < fuel) :
    (Toml.lines fuel r cs).map (·.root) = some (r.root ++ parts.map fun part =>
      (part.name, .table .header ((config.fields part).map Toml.Field.entry))) := by
  induction h generalizing r fuel with
  | nil =>
    obtain ⟨fuel, rfl⟩ := Nat.exists_eq_add_of_lt hfuel
    simp [Toml.lines, Toml.skipBlanks, Toml.skipComment]
  | newline h ih =>
    obtain ⟨fuel, rfl⟩ : ∃ k, fuel = k + 1 := ⟨fuel - 1, by omega⟩
    rw [Toml.lines_break]
    exact ih hnew (by simpa using hfuel)
  | @cons part parts cs hpart h ih =>
    obtain ⟨hnew, hparts⟩ := List.forall_mem_cons.1 hnew
    rw [text_eq] at hfuel ⊢
    have hlong := Toml.Field.length_lt_length_sectionText part.name.toList (config.fields part)
    rw [List.length_append] at hfuel
    -- A section has more characters than lines, so there is fuel left for what follows it.
    obtain ⟨k, rfl⟩ : ∃ k, fuel = k + (config.fields part).length + 1 :=
      ⟨fuel - (config.fields part).length - 1, by omega⟩
    obtain ⟨root, current⟩ := r
    have hname : String.ofList part.name.toList = part.name := String.ofList_toList
    rw [Toml.lines_section part.isBare_name (by rwa [hname])
      (fun field => holds_of_mem_fields hlimit) (config.nodup_keys part), hname, ih ?_ (by omega)]
    · simp
    · intro part' hmem
      have hne : part'.name ≠ part.name := by
        intro heq
        rw [ConfigSection.name_injective heq] at hmem
        exact hpart hmem
      simpa [hne] using hparts part' hmem

/-- A text of some sections has no byte order mark. -/
theorem Writes.head?_ne_mark {parts : List ConfigSection} {cs : List Char}
    (h : config.Writes parts cs) : ∀ c ∈ cs.head?, c ≠ '\ufeff' := by
  cases h with
  | nil => simp
  | newline h => simp
  | cons hpart h => simp [text_eq, Toml.Field.sectionText]

/-- A text of some sections is TOML with these. -/
theorem Writes.ofText? (hlimit : (config.search.defaultLimit.toNat : ℤ) ≤ Toml.maxInteger)
    {parts : List ConfigSection} {cs : List Char} (h : config.Writes parts cs) :
    Toml.ofText? (String.ofList cs) =
      some (parts.map fun part => (part.name, config.toml part)) := by
  -- Reading begins with no tables, so no section is there before.
  have hlines := h.lines hlimit (r := ⟨[], []⟩) (by simp) (Nat.lt_succ_self cs.length)
  have hentry (part : ConfigSection) :
      Toml.Tree.tomlEntry
        (part.name, .table .header ((config.fields part).map Toml.Field.entry)) =
      (part.name, config.toml part) := by
    rw [Toml.Tree.tomlEntry, Toml.Tree.toToml, Toml.tomlEntries_eq_map, List.map_map, toml]
    congr 3
  obtain ⟨r, hr, hroot⟩ := Option.map_eq_some_iff.1 hlines
  rw [List.nil_append] at hroot
  rw [Toml.ofText?_ofList h.head?_ne_mark, hr, Option.map_some, hroot, Toml.tomlEntries_eq_map,
    List.map_map]
  simp only [Function.comp_def, hentry]

/-! ## Reading sections -/

theorem countBelow?_natCast {bound n : ℕ} (h : n < bound) :
    (Toml.integer n).countBelow? bound = some n := by
  simp [Toml.countBelow?, h]

theorem storage_toml (config : Config) :
    StorageConfig.ofToml? (config.toml .storage) = some config.storage := by
  have hread {path max : Toml} {text : String} {n : ℕ} (hpath : path.text? = some text)
      (hmax : max.countBelow? UInt32.size = some n) :
      StorageConfig.ofToml? (.table [("database_path", path), ("max_connections", max)]) =
        some ⟨text, .ofNat n⟩ := by
    simp [StorageConfig.ofToml?, Toml.fields?, List.lookup_cons, hpath, hmax]
  have htoml : config.toml .storage = .table
      [("database_path", .string config.storage.databasePath),
        ("max_connections", .integer config.storage.maxConnections.toNat)] := by
    simp [toml, fields]
  rw [htoml, hread rfl (countBelow?_natCast config.storage.maxConnections.toNat_lt_size),
    UInt32.ofNat_toNat]

theorem impact_toml (config : Config) :
    ImpactConfig.ofToml? (config.toml .impact) = some config.impact := by
  have hread {depth : Toml} {n : ℕ} (hdepth : depth.countBelow? UInt32.size = some n) :
      ImpactConfig.ofToml? (.table [("max_depth", depth)]) = some ⟨.ofNat n⟩ := by
    simp [ImpactConfig.ofToml?, Toml.fields?, hdepth]
  have htoml : config.toml .impact =
      .table [("max_depth", .integer config.impact.maxDepth.toNat)] := by
    simp [toml, fields]
  rw [htoml, hread (countBelow?_natCast config.impact.maxDepth.toNat_lt_size),
    UInt32.ofNat_toNat]

theorem search_toml (config : Config) :
    SearchConfig.ofToml? (config.toml .search) = some config.search := by
  have hread {limit : Toml} {n : ℕ} (hlimit : limit.countBelow? UInt64.size = some n) :
      SearchConfig.ofToml? (.table [("default_limit", limit)]) = some ⟨.ofNat n⟩ := by
    simp [SearchConfig.ofToml?, Toml.fields?, hlimit]
  have htoml : config.toml .search =
      .table [("default_limit", .integer config.search.defaultLimit.toNat)] := by
    simp [toml, fields]
  rw [htoml, hread (countBelow?_natCast config.search.defaultLimit.toNat_lt_size),
    UInt64.ofNat_toNat]

/-- A section is found by its name. -/
theorem lookup_map_name (parts : List ConfigSection) (value : ConfigSection → Toml)
    (part : ConfigSection) :
    (parts.map fun part => (part.name, value part)).lookup part.name =
      if part ∈ parts then some (value part) else none := by
  induction parts with
  | nil => rfl
  | cons first parts ih =>
    rw [List.map_cons, List.lookup_cons, ih]
    by_cases h : part = first
    · simp [h]
    · have hname : (part.name == first.name) = false := by
        simpa using fun heq => h (ConfigSection.name_injective heq)
      simp [hname, h]

/-- A section is read if it is there, and is another one if not. -/
theorem sectionOf_lookup {α : Type} {read : Toml → Option α} {saved other : α}
    {part : ConfigSection} (hread : read (config.toml part) = some saved)
    (parts : List ConfigSection) (name : String) (hname : part.name = name) :
    sectionOf read other ((parts.map fun part => (part.name, config.toml part)).lookup name) =
      some (if part ∈ parts then saved else other) := by
  subst hname
  rw [lookup_map_name]
  split
  · exact hread
  · rfl

/-- Some sections of a configuration, and those of another one in place of the others. -/
def only (config : Config) (parts : List ConfigSection) (standard : Config) : Config where
  storage := if .storage ∈ parts then config.storage else standard.storage
  impact := if .impact ∈ parts then config.impact else standard.impact
  search := if .search ∈ parts then config.search else standard.search

theorem only_all (config standard : Config) :
    config.only [.storage, .impact, .search] standard = config := by
  simp [only]

/-- A text of some sections is read as the configuration with these. -/
theorem ofText?_of_writes (hlimit : (config.search.defaultLimit.toNat : ℤ) ≤ Toml.maxInteger)
    {parts : List ConfigSection} {cs : List Char} (h : config.Writes parts cs) :
    ofText? standard (String.ofList cs) = some (config.only parts standard) := by
  rw [ofText?, h.ofText? hlimit, Option.bind_eq_bind, Option.bind_some, ofToml?,
    sectionOf_lookup config.storage_toml parts "storage" rfl,
    sectionOf_lookup config.impact_toml parts "impact" rfl,
    sectionOf_lookup config.search_toml parts "search" rfl]
  rfl

/-! ## Files -/

variable {δ : Type} {disk disk' : Disk δ} {path : String}

/-- A configuration that has been saved can be worked with, and its text is in the file. -/
theorem save_eq_ok (h : config.save path disk = (disk', .ok ())) :
    config.validate = .ok () ∧ ∃ text, config.toToml? = some text ∧
      disk'.readText path = .ok text := by
  rw [save] at h
  split at h
  · cases h
  · rename_i hvalid
    split at h
    · cases h
    · split at h
      · cases h
      · rename_i text htext
        split at h
        · cases h
        · rename_i hwrite
          obtain ⟨rfl, -⟩ := Prod.mk.inj h
          exact ⟨hvalid, text, htext, Disk.readText_of_write hwrite⟩

theorem validate_eq_ok : config.validate = .ok () ↔
    config.storage.maxConnections ≠ 0 ∧ config.search.defaultLimit ≠ 0 := by
  rw [validate]
  split
  · simp [*]
  · split <;> simp [*]

/-- Sections of two configurations that can be worked with can be worked with. -/
theorem validate_only (h : config.validate = .ok ()) (h' : standard.validate = .ok ())
    (parts : List ConfigSection) : (config.only parts standard).validate = .ok () := by
  rw [validate_eq_ok] at h h' ⊢
  have hstorage : (if .storage ∈ parts then config.storage else
      standard.storage).maxConnections ≠ 0 := by
    split
    · exact h.1
    · exact h'.1
  have hsearch : (if .search ∈ parts then config.search else
      standard.search).defaultLimit ≠ 0 := by
    split
    · exact h.2
    · exact h'.2
  exact ⟨hstorage, hsearch⟩

/-- The configuration of a file is loaded. -/
theorem load_of_readText {text : String} (hread : disk.readText path = .ok text)
    (htext : ofText? standard text = some config) (hvalid : config.validate = .ok ()) :
    standard.load path disk = .ok config := by
  rw [load, if_pos (Disk.has_of_readText hread), hread]
  simp only [htext, hvalid]

/-- What is saved is all sections, written one after another. -/
theorem writes_of_toToml? {saved : String} (h : config.toToml? = some saved) :
    (config.search.defaultLimit.toNat : ℤ) ≤ Toml.maxInteger ∧
      ∃ cs, saved = String.ofList cs ∧ config.Writes [.storage, .impact, .search] cs := by
  rw [toToml?] at h
  split at h
  · rename_i hlimit
    refine ⟨hlimit, _, (Option.some.inj h).symm, ?_⟩
    have hsearch : config.Writes [.search] (config.text .search ++ []) := .cons (by simp) .nil
    have himpact : config.Writes [.impact, .search]
        (config.text .impact ++ '\n' :: (config.text .search ++ [])) :=
      .cons (by simp) hsearch.newline
    have hstorage : config.Writes [.storage, .impact, .search]
        (config.text .storage ++ '\n' ::
          (config.text .impact ++ '\n' :: (config.text .search ++ []))) :=
      .cons (by simp) himpact.newline
    simpa [text] using hstorage
  · cases h

end Config

/-- A configuration that has been saved is loaded from its file. The file has the three sections;
    a file with some of them gives the values that have been saved there, and the default ones in
    the other sections. -/
theorem load_of_save {δ : Type} {config : Config} {path : String} {disk disk' : Disk δ}
    (env : Environment) (h : config.save path disk = (disk', .ok ())) :
    (Config.standard env).load path disk' = .ok config ∧
      (∃ cs, disk'.readText path = .ok (String.ofList cs) ∧
        config.Writes [.storage, .impact, .search] cs) ∧
      ∀ parts cs, config.Writes parts cs → ∀ (other : Disk δ) (file : String),
        other.readText file = .ok (String.ofList cs) →
          (Config.standard env).load file other =
            .ok (config.only parts (Config.standard env)) := by
  obtain ⟨hvalid, text, htext, hread⟩ := Config.save_eq_ok h
  obtain ⟨hlimit, cs, rfl, hwrites⟩ := Config.writes_of_toToml? htext
  have hload {parts : List ConfigSection} {cs : List Char} (hwrites : config.Writes parts cs)
      {disk : Disk δ} {file : String} (hread : disk.readText file = .ok (String.ofList cs)) :
      (Config.standard env).load file disk = .ok (config.only parts (Config.standard env)) :=
    Config.load_of_readText hread (Config.ofText?_of_writes hlimit hwrites)
      (Config.validate_only hvalid rfl parts)
  refine ⟨?_, ⟨cs, hread, hwrites⟩, fun parts cs hwrites other file hread => hload hwrites hread⟩
  rw [hload hwrites hread, Config.only_all]

/-- A configuration whose path has quotes of both kinds and other characters that are escaped. -/
def Config.quoted : Config := ⟨⟨"it's \"red\"\\\n\x01", 5⟩, ⟨0⟩, ⟨7⟩⟩

/-- A disk with a single file. -/
def Disk.single (name text : String) : Disk Unit where
  working := ["work".toList]
  entries := [(["work".toList, name.toList], .file text.toUTF8)]

/-- A directory is made for the file. The other file has one section only. -/
theorem load_of_save_quoted :
    (Config.quoted.save "conf/c.toml" (.empty : Disk Unit)).2 = .ok () ∧
      (Config.standard ⟨some "/home/user", none, none⟩).load "conf/c.toml"
        (Config.quoted.save "conf/c.toml" (.empty : Disk Unit)).1 = .ok .quoted ∧
      (Config.standard ⟨some "/home/user", none, none⟩).load "c.toml"
        (.single "c.toml" "[impact]\nmax_depth = 0\n") =
          .ok { Config.standard ⟨some "/home/user", none, none⟩ with impact := ⟨0⟩ } := by
  have hsave : (Config.quoted.save "conf/c.toml" (.empty : Disk Unit)).2 = .ok () := by
    decide +kernel
  obtain ⟨hload, -, hparts⟩ := load_of_save ⟨some "/home/user", none, none⟩ (Prod.ext rfl hsave)
  have hwrites : Config.quoted.Writes [.impact] (Config.quoted.text .impact ++ []) :=
    .cons (by simp) .nil
  have htext : Config.quoted.text .impact ++ [] = "[impact]\nmax_depth = 0\n".toList := by rfl
  have hwrite : (.empty : Disk Unit).write "c.toml" "[impact]\nmax_depth = 0\n".toUTF8 =
      .ok (.single "c.toml" "[impact]\nmax_depth = 0\n") := by rfl
  refine ⟨hsave, hload, hparts [.impact] _ hwrites _ _ ?_⟩
  rw [htext, String.ofList_toList]
  exact Disk.readText_of_write hwrite

end Ripple
