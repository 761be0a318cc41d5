import Ripple.Proofs.Config.Values

/-!
# What a key takes

A number is read from a text that spells it, in digits after a plus sign or none, and from no
other text (`Config.numberBelow_eq_ok`). It is written in decimal digits, with no sign and with
no zero before them (`Config.isDecimal_iff`).

So a key of a configuration takes a path that is not blank or a number in its range, and gives it
back as it is written (`Config.Takes`). A value can be set if and only if its key takes it. Then
the key has it, no other key has changed, and to set what the key gives back changes nothing
(`set_iff_takes`).
-/

namespace Ripple

namespace Config

variable {bound n : ℕ} {cs : List Char} {key value text : String} {config config' : Config}

/-! ## Numbers -/

/-- A text spells a number: in one digit or more, with zeros before them or not, and after a plus
    sign or none. -/
def Spells (text : String) (n : ℕ) : Prop :=
  ∃ digits, digits ≠ [] ∧ IsNumeral digits n ∧
    (text.toList = digits ∨ text.toList = '+' :: digits)

/-- A text is the decimal form of a number: without a sign, and with no zero before other digits. -/
def IsDecimal (text : String) (n : ℕ) : Prop :=
  ∃ c rest, text.toList = c :: rest ∧ IsNumeral (c :: rest) n ∧ (c = '0' → rest = [])

theorem of_digitsBelow {number : ℕ} (h : digitsBelow bound number cs = .ok n) :
    (∀ c ∈ cs, c.isDigit) ∧ Nat.ofDigitChars 10 cs number = n := by
  induction cs generalizing number with
  | nil => exact ⟨by simp, Except.ok.inj h⟩
  | cons c cs ih =>
    rw [digitsBelow] at h
    split at h
    · dsimp only at h
      split at h
      · obtain ⟨hdigits, hvalue⟩ := ih h
        rw [ofDigitChars_ten_cons]
        exact ⟨List.forall_mem_cons.2 ⟨‹_›, hdigits⟩, hvalue⟩
      · cases h
    · cases h

theorem digitsBelow_eq_ok (hbound : 0 < bound) :
    digitsBelow bound 0 cs = .ok n ↔ IsNumeral cs n ∧ n < bound := by
  constructor
  · intro h
    obtain ⟨hdigits, hvalue⟩ := of_digitsBelow h
    exact ⟨⟨hdigits, hvalue⟩, lt_of_digitsBelow hbound h⟩
  · rintro ⟨⟨hdigits, rfl⟩, hlt⟩
    exact digitsBelow_of_digits hdigits hlt

/-- A number below a bound is read from the texts that spell it, and from no others. -/
theorem numberBelow_eq_ok (hbound : 0 < bound) :
    numberBelow bound text = .ok n ↔ Spells text n ∧ n < bound := by
  have hplus {rest : List Char} : ¬IsNumeral ('+' :: rest) n := fun h =>
    absurd (h.digits '+' List.mem_cons_self) (by decide)
  rw [numberBelow, Spells]
  cases text.toList with
  | nil => simp
  | cons c rest =>
    dsimp only
    split
    · rename_i hsign
      obtain ⟨rfl, hrest⟩ := hsign
      rw [digitsBelow_eq_ok hbound]
      refine and_congr_left fun _ => ⟨fun h => ⟨rest, hrest, h, .inr rfl⟩, ?_⟩
      rintro ⟨digits, -, h, rfl | hdigits⟩
      · exact absurd h hplus
      · rwa [(List.cons.inj hdigits).2]
    · rename_i hsign
      rw [digitsBelow_eq_ok hbound]
      refine and_congr_left fun _ => ⟨fun h => ⟨_, List.cons_ne_nil _ _, h, .inl rfl⟩, ?_⟩
      rintro ⟨digits, hne, h, rfl | hdigits⟩
      · exact h
      · obtain ⟨rfl, rfl⟩ := List.cons.inj hdigits
        exact absurd ⟨rfl, hne⟩ hsign

theorem isDecimal_iff : IsDecimal text n ↔ text = toString n := by
  rw [← String.toList_inj, Nat.toString_eq_ofList_toDigits, String.toList_ofList]
  constructor
  · rintro ⟨c, rest, htext, hnumeral, hzero⟩
    rw [htext]
    by_cases hc : c = '0'
    · subst hc
      obtain rfl := hzero rfl
      rw [← hnumeral.value]
      rfl
    · exact (hnumeral.eq_toDigits hc).symm
  · intro htext
    cases hdigits : Nat.toDigits 10 n with
    | nil => exact absurd hdigits Nat.toDigits_ne_nil
    | cons c rest =>
      refine ⟨c, rest, htext.trans hdigits, hdigits ▸ isNumeral_toDigits n, ?_⟩
      rintro rfl
      -- The digits of a number that is not zero begin with another one.
      rcases Nat.eq_zero_or_pos n with rfl | hpos
      · exact (List.cons.inj hdigits).2.symm
      · exact absurd (by rw [hdigits]; rfl) (head_toDigits_ne_zero hpos)

/-! ## Keys -/

/-- The keys of numbers, each with the least number that it takes and a bound of those that there
    is room for. -/
inductive NumberKey : String → ℕ → ℕ → Prop
  /-- There is one connection at least. -/
  | connections : NumberKey "storage.max_connections" 1 UInt32.size
  /-- An analysis may go no hop at all. -/
  | depth : NumberKey "impact.max_depth" 0 UInt32.size
  /-- A search returns one result at least. -/
  | limit : NumberKey "search.default_limit" 1 UInt64.size

theorem NumberKey.ne_path {least : ℕ} (h : NumberKey key least bound) :
    key ≠ "storage.database_path" := by
  cases h <;> decide

theorem NumberKey.bound_eq {least : ℕ} (h : NumberKey key least bound) :
    bound = if key = "search.default_limit" then UInt64.size else UInt32.size := by
  cases h <;> rfl

/-- A key takes a value, and gives it back as a text. -/
inductive Takes : String → String → String → Prop
  /-- A path is any text with a character that is not white space. It is given back as it is. -/
  | path {value : String} (h : ∃ c ∈ value.toList, ¬Text.isBlank c) :
    Takes "storage.database_path" value value
  /-- A number is in the range of its key. It is given back in its decimal form. -/
  | number {key value text : String} {least bound n : ℕ} (hkey : NumberKey key least bound)
    (hvalue : Spells value n) (hleast : least ≤ n) (hbound : n < bound)
    (htext : IsDecimal text n) : Takes key value text

theorem not_allBlank_iff {text : String} :
    ¬Text.allBlank text ↔ ∃ c ∈ text.toList, ¬Text.isBlank c := by
  simp [Text.allBlank]

theorem Takes.exists_sets (h : Takes key value text) (config : Config) :
    ∃ config', config.Sets key value config' := by
  cases h with
  | path h => exact ⟨_, .path (not_allBlank_iff.2 h)⟩
  | number hkey hvalue hleast hbound =>
    have hread := (numberBelow_eq_ok (Nat.zero_lt_of_lt hbound)).2 ⟨hvalue, hbound⟩
    cases hkey with
    | connections => exact ⟨_, .connections hread (Nat.one_le_iff_ne_zero.1 hleast)⟩
    | depth => exact ⟨_, .depth hread⟩
    | limit => exact ⟨_, .limit hread (Nat.one_le_iff_ne_zero.1 hleast)⟩

/-- A key gives a value back as one text. -/
theorem Takes.unique {text' : String} (h : Takes key value text) (h' : Takes key value text') :
    text = text' := by
  cases h with
  | path _ =>
    cases h' with
    | path _ => rfl
    | number hkey => exact absurd rfl hkey.ne_path
  | @number _ _ _ least bound n hkey hvalue _ hbound htext =>
    cases h' with
    | path _ => exact absurd rfl hkey.ne_path
    | @number _ _ _ least' bound' n' hkey' hvalue' _ hbound' htext' =>
      obtain rfl : bound = bound' := hkey.bound_eq.trans hkey'.bound_eq.symm
      have hpos := Nat.zero_lt_of_lt hbound
      have hread := (numberBelow_eq_ok hpos).2 ⟨hvalue, hbound⟩
      rw [(numberBelow_eq_ok hpos).2 ⟨hvalue', hbound'⟩] at hread
      obtain rfl := Except.ok.inj hread
      rw [isDecimal_iff.1 htext, isDecimal_iff.1 htext']

/-- What is read for the key of a number is given back in decimal form, which is read again. -/
theorem NumberKey.takes {least : ℕ} (hkey : NumberKey key least bound) (hleast : least ≤ n)
    (h : numberBelow bound value = .ok n) :
    n < bound ∧ Takes key value (toString n) ∧ numberBelow bound (toString n) = .ok n := by
  have hbound : 0 < bound := by cases hkey <;> decide
  obtain ⟨hvalue, hlt⟩ := (numberBelow_eq_ok hbound).1 h
  exact ⟨hlt, .number hkey hvalue hleast hlt (isDecimal_iff.2 rfl), numberBelow_toString hlt⟩

/-- A value that has been set is one that its key takes. The key gives back what it takes for it,
    and to set that makes no difference. -/
theorem Sets.exists_takes (h : config.Sets key value config') :
    ∃ text, Takes key value text ∧ config'.get key = .ok text ∧ config'.Sets key text config' := by
  cases h with
  | path h => exact ⟨_, .path (not_allBlank_iff.1 h), rfl, .path h⟩
  | connections h hn =>
    obtain ⟨hlt, htakes, hread⟩ := NumberKey.connections.takes (Nat.one_le_iff_ne_zero.2 hn) h
    exact ⟨_, htakes, by simp [get, UInt32.toNat_ofNat_of_lt' hlt], .connections hread hn⟩
  | depth h =>
    obtain ⟨hlt, htakes, hread⟩ := NumberKey.depth.takes (Nat.zero_le _) h
    exact ⟨_, htakes, by simp [get, UInt32.toNat_ofNat_of_lt' hlt], .depth hread⟩
  | limit h hn =>
    obtain ⟨hlt, htakes, hread⟩ := NumberKey.limit.takes (Nat.one_le_iff_ne_zero.2 hn) h
    exact ⟨_, htakes, by simp [get, UInt64.toNat_ofNat_of_lt' hlt], .limit hread hn⟩

/-- Configurations that differ in the value of a key have the same values of all others. -/
theorem SameBut.get (h : config.SameBut key config') {other : String} (hother : other ≠ key) :
    config'.get other = config.get other := by
  rw [Config.get, Config.get]
  split
  · subst other
    rw [h.path hother.symm]
  split
  · subst other
    rw [h.connections hother.symm]
  split
  · subst other
    rw [h.depth hother.symm]
  split
  · subst other
    rw [h.limit hother.symm]
  · rfl

end Config

/-- A value of any key can be set if and only if its key takes it. After that the key gives back
    what it takes for the value and the other keys give what they gave before. What the key gives
    back can be set again, which changes nothing. -/
theorem set_iff_takes (config : Config) (key value : String) :
    ((∃ config', config.set key value = .ok config') ↔ ∃ text, Config.Takes key value text) ∧
    ∀ config', config.set key value = .ok config' →
      (∀ text, config'.get key = .ok text ↔ Config.Takes key value text) ∧
      (∀ other, other ≠ key → config'.get other = config.get other) ∧
      ∀ text, config'.get key = .ok text → config'.set key text = .ok config' := by
  simp only [Config.set_eq_ok]
  refine ⟨⟨fun ⟨_, h⟩ => ?_, fun ⟨_, h⟩ => h.exists_sets config⟩, fun config' h => ?_⟩
  · obtain ⟨text, htakes, -⟩ := h.exists_takes
    exact ⟨text, htakes⟩
  · obtain ⟨text, htakes, hget, hsets⟩ := h.exists_takes
    refine ⟨fun text' => ?_, fun other => h.sameBut.get, fun text' hget' => ?_⟩
    · rw [hget, Except.ok.injEq]
      exact ⟨fun heq => heq ▸ htakes, htakes.unique⟩
    · rw [hget] at hget'
      exact Except.ok.inj hget' ▸ hsets

/-- The greatest limit, after a sign and zeros. -/
example : ((Config.standard ⟨some "/home/user", none, none⟩).set "search.default_limit"
    "+0018446744073709551615").bind (·.get "search.default_limit") =
      .ok "18446744073709551615" := by
  decide +kernel

end Ripple
