import Ripple.Proofs.Config.Values

/-!
# Saving a configuration

Saving goes through four steps, any of which can fail: the configuration is looked at, the directory
is made, the text is composed and the file is written (`Config.Saves`).

What has been set one after another can be worked with. So it is saved wherever a file can be
written, unless the limit of a search is greater than the integers of TOML (`save_of_setAll`), which
can be set nevertheless (`save_fails_limit`).
-/

namespace Ripple

namespace Config

variable {δ : Type} {config : Config} {path : String} {disk : Disk δ}

/-- How saving a configuration can end, and the disk that it leaves. -/
inductive Saves (config : Config) (path : String) (disk : Disk δ) :
    Disk δ → Except ConfigFileError Unit → Prop
  /-- It cannot be worked with. -/
  | refused {e : ConfigError} (h : config.validate = .error e) :
    Saves config path disk disk (.error (.refused e))
  /-- The directory cannot be made. -/
  | noDirectory {made : Disk δ} {e : ConfigFileError} (hvalid : config.validate = .ok ())
    (h : prepareDirectory path disk = (made, .error e)) :
    Saves config path disk made (.error e)
  /-- There is no text for it. -/
  | unwritable {made : Disk δ} (hvalid : config.validate = .ok ())
    (hmade : prepareDirectory path disk = (made, .ok ())) (h : config.toToml? = none) :
    Saves config path disk made (.error .unwritable)
  /-- The file cannot be written. -/
  | notWritten {made : Disk δ} {text : String} {e : DiskError} (hvalid : config.validate = .ok ())
    (hmade : prepareDirectory path disk = (made, .ok ())) (htext : config.toToml? = some text)
    (h : made.write path text.toUTF8 = .error e) :
    Saves config path disk made (.error (.notWritten path e))
  /-- The file is written. -/
  | saved {made written : Disk δ} {text : String} (hvalid : config.validate = .ok ())
    (hmade : prepareDirectory path disk = (made, .ok ())) (htext : config.toToml? = some text)
    (h : made.write path text.toUTF8 = .ok written) :
    Saves config path disk written (.ok ())

theorem saves (config : Config) (path : String) (disk : Disk δ) :
    config.Saves path disk (config.save path disk).1 (config.save path disk).2 := by
  rw [save]
  split
  · exact .refused ‹_›
  · split
    · exact .noDirectory ‹_› ‹_›
    · split
      · exact .unwritable ‹_› ‹_› ‹_›
      · split
        · exact .notWritten ‹_› ‹_› ‹_› ‹_›
        · exact .saved ‹_› ‹_› ‹_› ‹_›

/-- What is made before a file is written are directories. -/
theorem gainsDirectories_prepareDirectory (path : String) (disk : Disk δ) :
    disk.GainsDirectories (prepareDirectory path disk).1 := by
  rw [prepareDirectory]
  split
  · exact .refl disk
  · rename_i parent _
    have hparent := disk.gainsDirectories_makeDirectories parent
    split
    · rename_i hmade
      rwa [hmade] at hparent
    · rename_i hmade
      rwa [hmade] at hparent

/-- A path under which a configuration can be saved: its directory can be made, and then a file can
    be written there. -/
def Writable (path : String) (disk : Disk δ) : Prop :=
  ∃ made, prepareDirectory path disk = (made, .ok ()) ∧ made.Takes path

/-- There is no text only if the limit of a search is too large. -/
theorem toToml?_eq_none :
    config.toToml? = none ↔ Toml.maxInteger < (config.search.defaultLimit.toNat : ℤ) := by
  rw [toToml?]
  split
  · simpa using ‹_›
  · rename_i hlimit
    simpa using not_le.1 hlimit

/-- What can be worked with is saved if and only if its path is writable and its limit is not too
    large. -/
theorem save_eq_ok_iff (hvalid : config.validate = .ok ()) :
    (config.save path disk).2 = .ok () ↔
      Writable path disk ∧ (config.search.defaultLimit.toNat : ℤ) ≤ Toml.maxInteger := by
  have hsaves := config.saves path disk
  generalize (config.save path disk).1 = after, (config.save path disk).2 = result at hsaves ⊢
  constructor
  · rintro rfl
    cases hsaves with
    | saved _ hmade htext hwrite =>
      refine ⟨⟨_, hmade, Disk.exists_write_iff.1 ⟨_, hwrite⟩⟩, ?_⟩
      rw [← not_lt, ← toToml?_eq_none, htext]
      exact nofun
  · rintro ⟨⟨made, hmade, htakes⟩, hlimit⟩
    -- None of the steps can have failed.
    cases hsaves with
    | refused h => exact absurd (hvalid.symm.trans h) nofun
    | noDirectory _ h => exact absurd (hmade.symm.trans h) (by simp)
    | unwritable _ _ h => exact absurd (toToml?_eq_none.1 h) hlimit.not_gt
    | notWritten _ hmade' _ h =>
      obtain ⟨rfl, -⟩ := Prod.mk.inj (hmade.symm.trans hmade')
      obtain ⟨written, hwrite⟩ := Disk.exists_write_iff.2 htakes
      exact absurd (hwrite.symm.trans h) nofun
    | saved => rfl

/-- At a path that is writable nothing can fail but the text. -/
theorem save_of_lt (hvalid : config.validate = .ok ()) (hpath : Writable path disk)
    (hlimit : Toml.maxInteger < (config.search.defaultLimit.toNat : ℤ)) :
    (config.save path disk).2 = .error .unwritable := by
  obtain ⟨made, hmade, -⟩ := hpath
  rw [save, hvalid]
  simp only [hmade, toToml?_eq_none.2 hlimit]

end Config

/-- A configuration that is made of the standard one by setting values is saved if and only if its
    path is writable and the limit of a search fits an integer of TOML. If it does not fit then
    there is no text for the configuration. -/
theorem save_of_setAll {δ : Type} {env : Environment} {pairs : List (String × String)}
    {config : Config} (h : (Config.standard env).setAll pairs = .ok config) (path : String)
    (disk : Disk δ) :
    ((config.save path disk).2 = .ok () ↔ Config.Writable path disk ∧
      (config.search.defaultLimit.toNat : ℤ) ≤ Toml.maxInteger) ∧
    (Config.Writable path disk → Toml.maxInteger < (config.search.defaultLimit.toNat : ℤ) →
      (config.save path disk).2 = .error .unwritable) := by
  have hvalid : config.validate = .ok () := Config.validate_of_setAll rfl h
  exact ⟨Config.save_eq_ok_iff hvalid, Config.save_of_lt hvalid⟩

/-- A file in a directory that has to be made is writable. -/
theorem Config.writable_nested : Writable "conf/c.toml" (.empty : Disk Unit) :=
  ⟨_, rfl, _, rfl, nofun⟩

/-- The greatest limit that can be saved, with a path that has to be quoted. -/
theorem save_of_setAll_greatest :
    let standard := Config.standard ⟨some "/home/user", none, none⟩
    let config := { standard with
      storage := ⟨"it's \"red\"", 5⟩
      search := ⟨9223372036854775807⟩ }
    standard.setAll [("search.default_limit", "+09223372036854775807"),
        ("storage.database_path", "it's \"red\"")] = .ok config ∧
      (config.save "conf/c.toml" (.empty : Disk Unit)).2 = .ok () := by
  intro standard config
  have hset : standard.setAll [("search.default_limit", "+09223372036854775807"),
      ("storage.database_path", "it's \"red\"")] = .ok config := by decide +kernel
  exact ⟨hset, (save_of_setAll hset _ _).1.2 ⟨Config.writable_nested, by decide⟩⟩

/-- The next limit can be set, and then there is no text. -/
theorem save_fails_limit :
    let standard := Config.standard ⟨some "/home/user", none, none⟩
    let config := { standard with search := ⟨9223372036854775808⟩ }
    standard.setAll [("search.default_limit", "9223372036854775808")] = .ok config ∧
      Config.Writable "conf/c.toml" (.empty : Disk Unit) ∧
      (config.save "conf/c.toml" (.empty : Disk Unit)).2 = .error .unwritable :=
  ⟨by decide +kernel, Config.writable_nested, by decide +kernel⟩

end Ripple
