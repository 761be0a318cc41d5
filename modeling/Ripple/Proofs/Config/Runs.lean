import Ripple.Proofs.Config.Saving

/-!
# Runs of configuration operations

An `Operation` sets a value of a configuration that is held, loads another one in its place or saves
it, in a file that is named or in the default one. Between operations anybody may change the files.

From the standard configuration on, what is held can be worked with at any time
(`Config.validate_run`). An operation that fails leaves the configuration as it was, and the files
too: it makes directories at most. One that sets a value changes no other one (`run_keeps_valid`).
-/

namespace Ripple

namespace Config

variable {δ : Type}

/-- A configuration that is held, and the files around it. -/
structure Held (δ : Type) where
  /-- The configuration. -/
  config : Config
  /-- The files. -/
  disk : Disk δ

/-- What can happen to a configuration that is held, and to the files around it. -/
inductive Operation (δ : Type) where
  /-- A value is set. -/
  | set (key value : String)
  /-- A file is loaded. -/
  | load (env : Environment) (path : String)
  /-- The default file is loaded. -/
  | loadDefault (env : Environment)
  /-- The configuration is saved in a file. -/
  | save (path : String)
  /-- The configuration is saved in the default file. -/
  | saveDefault (env : Environment)
  /-- Someone else leaves other files. -/
  | change (disk : Disk δ)

namespace Held

variable {held : Held δ}

/-- Takes a configuration over, if there is one. -/
def adopt (held : Held δ) : Except ConfigFileError Config → Held δ × Except ConfigFileError Unit
  | .ok config => ({ held with config }, .ok ())
  | .error e => (held, .error e)

/-- Leaves the disk on which the configuration has been saved or not. -/
def keep (held : Held δ) (saved : Disk δ × Except ConfigFileError Unit) :
    Held δ × Except ConfigFileError Unit := ({ held with disk := saved.1 }, saved.2)

/-- What an operation leaves, and whether it succeeds. -/
def perform (held : Held δ) : Operation δ → Held δ × Except ConfigFileError Unit
  | .set key value => held.adopt ((held.config.set key value).mapError .refused)
  | .load env path => held.adopt ((Config.standard env).load path held.disk)
  | .loadDefault env => held.adopt (Config.loadDefault env held.disk)
  | .save path => held.keep (held.config.save path held.disk)
  | .saveDefault env => held.keep (held.config.saveDefault env held.disk)
  | .change disk => ({ held with disk }, .ok ())

/-- What some operations leave. -/
def run (held : Held δ) (operations : List (Operation δ)) : Held δ :=
  operations.foldl (fun held operation => (held.perform operation).1) held

/-! ## One operation -/

/-- A configuration that is taken over can be worked with if it comes from what can be. -/
theorem validate_adopt {result : Except ConfigFileError Config}
    (hvalid : held.config.validate = .ok ())
    (h : ∀ config, result = .ok config → config.validate = .ok ()) :
    (held.adopt result).1.config.validate = .ok () := by
  cases result with
  | ok config => exact h config rfl
  | error e => exact hvalid

/-- An operation leaves a configuration that can be worked with. -/
theorem validate_perform (hvalid : held.config.validate = .ok ()) (operation : Operation δ) :
    (held.perform operation).1.config.validate = .ok () := by
  cases operation with
  | set key value =>
    refine validate_adopt hvalid fun config h => ?_
    exact (set_eq_ok.1 (mapError_eq_ok.1 h)).validate hvalid
  | load env path => exact validate_adopt hvalid fun config => validate_of_load rfl
  | loadDefault env =>
    refine validate_adopt hvalid fun config h => ?_
    rw [Config.loadDefault] at h
    split at h
    · exact validate_of_load rfl h
    · cases h
  | save path => exact hvalid
  | saveDefault env => exact hvalid
  | change disk => exact hvalid

/-- What is not taken over changes nothing. -/
theorem adopt_of_error {result : Except ConfigFileError Config} {e : ConfigFileError}
    (h : (held.adopt result).2 = .error e) : (held.adopt result).1 = held := by
  cases result with
  | ok config => cases h
  | error e => rfl

/-- A configuration that is not saved leaves nothing but directories. -/
theorem gainsDirectories_save {config : Config} {disk : Disk δ} {path : String}
    {e : ConfigFileError} (h : (config.save path disk).2 = .error e) :
    disk.GainsDirectories (config.save path disk).1 := by
  have hmade {made : Disk δ} {result : Except ConfigFileError Unit}
      (h : prepareDirectory path disk = (made, result)) : disk.GainsDirectories made := by
    have hprepared := gainsDirectories_prepareDirectory path disk
    rwa [h] at hprepared
  have hsaves := config.saves path disk
  generalize (config.save path disk).1 = after, (config.save path disk).2 = result at h hsaves ⊢
  -- Whichever step fails, no file has been opened by then.
  cases hsaves with
  | refused => exact .refl _
  | noDirectory _ hprepare => exact hmade hprepare
  | unwritable _ hprepare => exact hmade hprepare
  | notWritten _ hprepare => exact hmade hprepare
  | saved => cases h

/-- An operation that fails leaves the configuration, and the files but for directories. -/
theorem perform_of_error {operation : Operation δ} {e : ConfigFileError}
    (h : (held.perform operation).2 = .error e) :
    (held.perform operation).1.config = held.config ∧
      held.disk.GainsDirectories (held.perform operation).1.disk := by
  have hsame {result : Except ConfigFileError Config} (h : (held.adopt result).2 = .error e) :
      (held.adopt result).1.config = held.config ∧
        held.disk.GainsDirectories (held.adopt result).1.disk := by
    rw [adopt_of_error h]
    exact ⟨rfl, .refl _⟩
  cases operation with
  | set key value => exact hsame h
  | load env path => exact hsame h
  | loadDefault env => exact hsame h
  | save path => exact ⟨rfl, gainsDirectories_save h⟩
  | saveDefault env =>
    refine ⟨rfl, ?_⟩
    change (held.config.saveDefault env held.disk).2 = _ at h
    change held.disk.GainsDirectories (held.config.saveDefault env held.disk).1
    rw [saveDefault] at h ⊢
    split at h
    · exact gainsDirectories_save h
    · exact .refl _
  | change disk => cases h

/-- A value that is set is the only one that changes. -/
theorem sameBut_perform {key value : String} (h : (held.perform (.set key value)).2 = .ok ()) :
    held.config.SameBut key (held.perform (.set key value)).1.config := by
  rw [perform] at h ⊢
  cases hset : held.config.set key value with
  | ok config => exact (set_eq_ok.1 hset).sameBut
  | error e =>
    rw [hset] at h
    cases h

/-! ## Runs -/

/-- From a configuration that can be worked with, any operations lead to one. -/
theorem validate_run (hvalid : held.config.validate = .ok ()) (operations : List (Operation δ)) :
    (held.run operations).config.validate = .ok () := by
  induction operations generalizing held with
  | nil => exact hvalid
  | cons operation operations ih => exact ih (validate_perform hvalid operation)

end Held

end Config

/-- Whatever is set, loaded and saved from the standard configuration on, and whatever becomes of
    the files in between, the configuration that is held can be worked with at any time. An
    operation that fails leaves it as it was, and all files as they were: if it changes the disk at
    all it makes directories where nothing was. A value that is set changes no other value. -/
theorem run_keeps_valid {δ : Type} (env : Environment) (disk : Disk δ)
    (operations : List (Config.Operation δ)) :
    let held := Config.Held.run ⟨.standard env, disk⟩ operations
    held.config.validate = .ok () ∧
      (∀ operation e, (held.perform operation).2 = .error e →
        (held.perform operation).1.config = held.config ∧
          held.disk.GainsDirectories (held.perform operation).1.disk) ∧
      ∀ key value, (held.perform (.set key value)).2 = .ok () →
        held.config.SameBut key (held.perform (.set key value)).1.config := by
  intro held
  exact ⟨Config.Held.validate_run rfl operations,
    fun _ _ => Config.Held.perform_of_error,
    fun _ _ => Config.Held.sameBut_perform⟩

/-- A depth is loaded and a limit is set that cannot be saved. What is left of an attempt to save
    them is a directory. -/
theorem run_keeps_valid_unwritable :
    let env : Environment := ⟨some "/home/user", none, none⟩
    let held := Config.Held.run
      ⟨.standard env, Disk.single "c.toml" "[impact]\nmax_depth = 7\n"⟩
      [.load env "c.toml", .set "search.default_limit" "9223372036854775808"]
    held.config = { Config.standard env with impact := ⟨7⟩, search := ⟨9223372036854775808⟩ } ∧
      (held.perform (.save "conf/c.toml")).2 = .error .unwritable ∧
      (held.perform (.save "conf/c.toml")).1.config = held.config ∧
      held.disk.GainsDirectories (held.perform (.save "conf/c.toml")).1.disk ∧
      (held.perform (.save "conf/c.toml")).1.disk.hasDirectory "conf" := by
  intro env held
  have hsaved : (held.perform (.save "conf/c.toml")).2 = .error .unwritable := by decide +kernel
  have hfails : ∀ operation e, (held.perform operation).2 = .error e →
      (held.perform operation).1.config = held.config ∧
        held.disk.GainsDirectories (held.perform operation).1.disk :=
    (run_keeps_valid env _ _).2.1
  obtain ⟨hconfig, hdisk⟩ := hfails (.save "conf/c.toml") .unwritable hsaved
  exact ⟨by decide +kernel, hsaved, hconfig, hdisk, by decide +kernel⟩

end Ripple
