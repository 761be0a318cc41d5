import Ripple.Proofs.Config.File
import Ripple.Proofs.Except

/-!
# Values set by their keys

A number that is written in decimal digits is read back if it is below the bound, and no number
is read that is not (`Config.numberBelow_toString`, `Config.lt_of_numberBelow`).

To set a value is to change that of its key and no other (`Config.Sets`), from a configuration
that can be worked with to one that can be, too. So the values of a configuration that has been
loaded can be set one after another, which makes any configuration the loaded one, unless its
database path is blank (`setAll_entries_of_load`): that can be loaded, but it cannot be set
(`setAll_entries_fails_blank`).
-/

namespace Ripple

namespace Config

/-! ## Numbers -/

section Numbers

variable {bound number n : ℕ} {cs : List Char} {text : String}

theorem lt_of_digitsBelow (hnumber : number < bound) (h : digitsBelow bound number cs = .ok n) :
    n < bound := by
  induction cs generalizing number with
  | nil =>
    obtain rfl := Except.ok.inj h
    exact hnumber
  | cons c cs ih =>
    rw [digitsBelow] at h
    split at h
    · dsimp only at h
      split at h
      · exact ih ‹_› h
      · cases h
    · cases h

/-- A number that is read is below the bound. -/
theorem lt_of_numberBelow (hbound : 0 < bound) (h : numberBelow bound text = .ok n) :
    n < bound := by
  rw [numberBelow] at h
  split at h
  · cases h
  · split at h
    · exact lt_of_digitsBelow hbound h
    · exact lt_of_digitsBelow hbound h

/-- Digits are read as their value if it is below the bound. -/
theorem digitsBelow_of_digits (hdigits : ∀ c ∈ cs, c.isDigit)
    (hlt : Nat.ofDigitChars 10 cs number < bound) :
    digitsBelow bound number cs = .ok (Nat.ofDigitChars 10 cs number) := by
  induction cs generalizing number with
  | nil => rfl
  | cons c cs ih =>
    obtain ⟨hc, hcs⟩ := List.forall_mem_cons.1 hdigits
    rw [ofDigitChars_ten_cons] at hlt ⊢
    rw [digitsBelow, if_pos hc]
    dsimp only
    -- The number of the digits up to here is no greater than that of all of them.
    rw [if_pos ((le_ofDigitChars cs _).trans_lt hlt), ih hcs hlt]

/-- A number below the bound is read from its decimal digits. -/
theorem numberBelow_toString (h : n < bound) : numberBelow bound (toString n) = .ok n := by
  have hnumeral := isNumeral_toDigits n
  have hread : digitsBelow bound 0 (Nat.toDigits 10 n) = .ok n := by
    have hvalue := digitsBelow_of_digits hnumeral.digits (by rwa [hnumeral.value])
    rwa [hnumeral.value] at hvalue
  rw [numberBelow, Nat.toString_eq_ofList_toDigits, String.toList_ofList]
  split
  · exact absurd ‹_› Nat.toDigits_ne_nil
  · rename_i c cs hcs
    have hplus : c ≠ '+' := by
      rintro rfl
      exact absurd (hnumeral.digits '+' (by simp [hcs])) (by decide)
    rw [if_neg fun h => hplus h.1, ← hcs, hread]

end Numbers

/-! ## Keys -/

variable {config config' : Config} {key value : String}

/-- The second configuration is the first one with the value of a key that a text says. -/
inductive Sets (config : Config) : String → String → Config → Prop
  /-- Any text that is not blank is a path. -/
  | path {text : String} (h : ¬Text.allBlank text) :
    Sets config "storage.database_path" text { config with storage.databasePath := text }
  /-- There is one connection at least. -/
  | connections {text : String} {n : ℕ} (h : numberBelow UInt32.size text = .ok n) (hn : n ≠ 0) :
    Sets config "storage.max_connections" text { config with storage.maxConnections := .ofNat n }
  /-- An analysis may go no hop at all. -/
  | depth {text : String} {n : ℕ} (h : numberBelow UInt32.size text = .ok n) :
    Sets config "impact.max_depth" text { config with impact.maxDepth := .ofNat n }
  /-- A search returns one result at least. -/
  | limit {text : String} {n : ℕ} (h : numberBelow UInt64.size text = .ok n) (hn : n ≠ 0) :
    Sets config "search.default_limit" text { config with search.defaultLimit := .ofNat n }

theorem set_eq_ok : config.set key value = .ok config' ↔ config.Sets key value config' := by
  constructor
  · intro h
    -- The key is compared with each of the four, and then the value is read.
    rw [set] at h
    split at h
    · subst key
      split at h
      · cases h
      · obtain rfl := Except.ok.inj h
        exact .path ‹_›
    split at h
    · subst key
      obtain ⟨n, hn, h⟩ := bind_eq_ok.1 h
      by_cases hzero : n = 0
      · rw [if_pos hzero] at h
        cases h
      · rw [if_neg hzero] at h
        obtain rfl := Except.ok.inj h
        exact .connections (mapError_eq_ok.1 hn) hzero
    split at h
    · subst key
      obtain ⟨n, hn, h⟩ := bind_eq_ok.1 h
      obtain rfl := Except.ok.inj h
      exact .depth (mapError_eq_ok.1 hn)
    split at h
    · subst key
      obtain ⟨n, hn, h⟩ := bind_eq_ok.1 h
      by_cases hzero : n = 0
      · rw [if_pos hzero] at h
        cases h
      · rw [if_neg hzero] at h
        obtain rfl := Except.ok.inj h
        exact .limit (mapError_eq_ok.1 hn) hzero
    · cases h
  · intro h
    cases h with
    | path h => simp [set, h]
    | connections h hn => simp [set, h, hn, Except.mapError, pure, Except.pure]
    | depth h => simp [set, h, Except.mapError, pure, Except.pure]
    | limit h hn => simp [set, h, hn, Except.mapError, pure, Except.pure]

/-- What can be worked with can be after a value has been set, too. -/
theorem Sets.validate (h : config.Sets key value config') (hvalid : config.validate = .ok ()) :
    config'.validate = .ok () := by
  rw [validate_eq_ok] at hvalid ⊢
  cases h with
  | path h => exact hvalid
  | @connections _ n h hn =>
    refine ⟨fun hzero => hn ?_, hvalid.2⟩
    have hword : (UInt32.ofNat n).toNat = 0 := congrArg UInt32.toNat hzero
    rwa [UInt32.toNat_ofNat_of_lt' (lt_of_numberBelow (by decide) h)] at hword
  | depth h => exact hvalid
  | @limit _ n h hn =>
    refine ⟨hvalid.1, fun hzero => hn ?_⟩
    have hword : (UInt64.ofNat n).toNat = 0 := congrArg UInt64.toNat hzero
    rwa [UInt64.toNat_ofNat_of_lt' (lt_of_numberBelow (by decide) h)] at hword

/-- Two configurations that differ in the value of a key, if at all. -/
structure SameBut (key : String) (config config' : Config) : Prop where
  path : key ≠ "storage.database_path" →
    config'.storage.databasePath = config.storage.databasePath
  connections : key ≠ "storage.max_connections" →
    config'.storage.maxConnections = config.storage.maxConnections
  depth : key ≠ "impact.max_depth" → config'.impact = config.impact
  limit : key ≠ "search.default_limit" → config'.search = config.search

theorem Sets.sameBut (h : config.Sets key value config') : config.SameBut key config' := by
  cases h with
  | path h => exact ⟨fun hkey => absurd rfl hkey, fun _ => rfl, fun _ => rfl, fun _ => rfl⟩
  | connections h hn =>
    exact ⟨fun _ => rfl, fun hkey => absurd rfl hkey, fun _ => rfl, fun _ => rfl⟩
  | depth h => exact ⟨fun _ => rfl, fun _ => rfl, fun hkey => absurd rfl hkey, fun _ => rfl⟩
  | limit h hn => exact ⟨fun _ => rfl, fun _ => rfl, fun _ => rfl, fun hkey => absurd rfl hkey⟩

/-! ## Several values -/

/-- A configuration in which some keys have been set to some values, one after another. -/
def setAll (config : Config) (pairs : List (String × String)) : Except ConfigError Config :=
  pairs.foldlM (fun config (key, value) => config.set key value) config

theorem setAll_cons (config : Config) (key value : String) (pairs : List (String × String)) :
    config.setAll ((key, value) :: pairs) = config.set key value >>= (·.setAll pairs) := rfl

/-- A configuration that can be worked with can be after any values have been set. -/
theorem validate_of_setAll {pairs : List (String × String)} (hvalid : config.validate = .ok ())
    (h : config.setAll pairs = .ok config') : config'.validate = .ok () := by
  induction pairs generalizing config with
  | nil =>
    obtain rfl := Except.ok.inj h
    exact hvalid
  | cons pair pairs ih =>
    obtain ⟨key, value⟩ := pair
    obtain ⟨next, hnext, hpairs⟩ := bind_eq_ok.1 (setAll_cons config key value pairs ▸ h)
    exact ih ((set_eq_ok.1 hnext).validate hvalid) hpairs

theorem entries_eq (config : Config) : config.entries =
    [("storage.database_path", config.storage.databasePath),
      ("storage.max_connections", toString config.storage.maxConnections.toNat),
      ("impact.max_depth", toString config.impact.maxDepth.toNat),
      ("search.default_limit", toString config.search.defaultLimit.toNat)] := by
  simp [entries, keys, get, Except.toOption]

/-- All values of a configuration that can be worked with can be set, but perhaps the path. -/
theorem setAll_tail_entries (hvalid : config.validate = .ok ()) (start : Config) :
    start.setAll config.entries.tail =
      .ok { config with storage.databasePath := start.storage.databasePath } := by
  obtain ⟨hconnections, hlimit⟩ := validate_eq_ok.1 hvalid
  have hconnections : config.storage.maxConnections.toNat ≠ 0 :=
    fun hzero => hconnections (UInt32.toNat_inj.1 hzero)
  have hlimit : config.search.defaultLimit.toNat ≠ 0 :=
    fun hzero => hlimit (UInt64.toNat_inj.1 hzero)
  rw [entries_eq, List.tail_cons, setAll_cons, set_eq_ok.2 (.connections
    (numberBelow_toString config.storage.maxConnections.toNat_lt_size) hconnections), ok_bind,
    setAll_cons, set_eq_ok.2 (.depth
    (numberBelow_toString config.impact.maxDepth.toNat_lt_size)), ok_bind,
    setAll_cons, set_eq_ok.2 (.limit
    (numberBelow_toString config.search.defaultLimit.toNat_lt_size) hlimit), ok_bind]
  simp [setAll, pure, Except.pure]

/-- A configuration that has been loaded can be worked with. -/
theorem validate_of_load {δ : Type} {disk : Disk δ} {path : String} {standard : Config}
    (hstandard : standard.validate = .ok ()) (h : standard.load path disk = .ok config) :
    config.validate = .ok () := by
  rw [load] at h
  split at h
  · split at h
    · cases h
    · split at h
      · cases h
      · split at h
        · cases h
        · obtain rfl := Except.ok.inj h
          assumption
  · obtain rfl := Except.ok.inj h
    exact hstandard

end Config

/-- The values of a configuration that has been loaded are set in another one, which makes it the
    one that has been loaded. They are refused if and only if the path is blank, which is the first
    of them; all others can be set. -/
theorem setAll_entries_of_load {δ : Type} {disk : Disk δ} {path : String} {config : Config}
    (env : Environment) (h : (Config.standard env).load path disk = .ok config) (start : Config) :
    (¬Text.allBlank config.storage.databasePath → start.setAll config.entries = .ok config) ∧
      (Text.allBlank config.storage.databasePath →
        start.setAll config.entries = .error .blankPath) ∧
      start.setAll config.entries.tail =
        .ok { config with storage.databasePath := start.storage.databasePath } := by
  have hvalid : config.validate = .ok () := Config.validate_of_load rfl h
  have hset : start.setAll config.entries =
      start.set "storage.database_path" config.storage.databasePath >>=
        (·.setAll config.entries.tail) := by
    rw [Config.entries_eq]
    rfl
  refine ⟨fun hpath => ?_, fun hpath => ?_, Config.setAll_tail_entries hvalid start⟩
  · rw [hset, Config.set_eq_ok.2 (.path hpath), ok_bind, Config.setAll_tail_entries hvalid]
  · have hrefused : start.set "storage.database_path" config.storage.databasePath =
        .error .blankPath := if_pos hpath
    rw [hset, hrefused, error_bind]

/-- The greatest numbers that a file can hold, and a path with a blank in it. -/
theorem setAll_entries_of_load_greatest :
    let env : Environment := ⟨some "/home/user", none, none⟩
    let text := "[storage]\ndatabase_path=\" .db\"\nmax_connections=4294967295
      [search]\ndefault_limit=9223372036854775807"
    let config : Config := ⟨⟨" .db", 4294967295⟩, ⟨3⟩, ⟨9223372036854775807⟩⟩
    (Config.standard env).load "c.toml" (.single "c.toml" text) = .ok config ∧
      (Config.standard env).setAll config.entries = .ok config := by
  intro env text config
  have htext : Config.ofText? (.standard env) text = some config := by decide +kernel
  have hload : (Config.standard env).load "c.toml" (.single "c.toml" text) = .ok config :=
    Config.load_of_readText (Disk.readText_of_find rfl) htext rfl
  exact ⟨hload, (setAll_entries_of_load env hload _).1 (by decide)⟩

/-- A blank path is loaded from a file, and then it cannot be set. -/
theorem setAll_entries_fails_blank :
    let standard := Config.standard ⟨some "/home/user", none, none⟩
    let disk := Disk.single "c.toml" "[storage]\ndatabase_path = \" \"\nmax_connections = 5\n"
    let config := { standard with storage := ⟨" ", 5⟩ }
    standard.load "c.toml" disk = .ok config ∧
      standard.setAll config.entries = .error .blankPath := by
  decide +kernel

end Ripple
