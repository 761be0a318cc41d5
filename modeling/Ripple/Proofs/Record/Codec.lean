import Ripple.Record.Fields
import Ripple.Proofs.Json.Members
import Ripple.Proofs.Time.Lenient

/-!
# Laws of codecs

What a codec reads from the text of a value that it has written depends on the draft of that text
alone. `Codec.Gives` says what it is, and each codec of this module has a law that says of which
values: any strings, timestamps and words, integers of its range, and metadata without doubles but
for `null`, which is read as nothing. Laws of lists, pairs and options go through their parts.

A codec may read a value and pass over how deeply it nests. `Codec.Heeds` says that it does not:
what it has read from a record can be written into one.
-/

namespace Ripple

open Json (Draft Document depthLimit)

variable {α β : Type}

/-- What a codec gives for a value that it has written. -/
def Codec.Gives (codec : Codec α) (v w : α) : Prop := codec.read (codec.write v).shown = .ok w

/-- Whether a codec reads nothing from a record that nests too deeply there. -/
def Codec.Heeds (codec : Codec α) : Prop :=
  ∀ {v w : α} {draft : Draft}, draft.Shows 1 (codec.write v) → codec.read draft = .ok w →
    1 + (codec.write v).depth ≤ depthLimit

/-- A value, unless it is `null`, which stands for none. -/
def Json.unlessNull : Json → Option Json
  | .null => none
  | value => some value

namespace Codec

variable {codec : Codec α} {v w : α}

/-! ## Writing -/

variable {n : ℕ}

@[simp] theorem write_map {there : β → α} {back : α → β} (v : β) :
    (codec.map there back).write v = codec.write (there v) := rfl

@[simp] theorem readable_stringAs (expected s : String) :
    ((stringAs expected).write s).Readable n :=
  Json.readable_str s

@[simp] theorem readable_string (s : String) : (string.write s).Readable n := Json.readable_str s

@[simp] theorem readable_instant (t : Instant) : (instant.write t).Readable n :=
  Json.readable_str t.recordText

@[simp] theorem readable_int64 {k : ℤ} : (int64.write k).Readable n ↔
    -9223372036854775808 ≤ k ∧ k < 18446744073709551616 :=
  Json.readable_int

@[simp] theorem readable_count (expected : String) {k : ℕ} :
    ((count expected).write k).Readable n ↔ k < 18446744073709551616 :=
  Json.readable_int.trans (by rw [Int.ofNat_eq_natCast]; omega)

@[simp] theorem readable_word32 (k : UInt32) : (word32.write k).Readable n := by
  have hk : k.toNat < 4294967296 := k.toNat_lt
  have h : (Json.int k.toNat).Readable n := Json.readable_int.2 (by omega)
  exact h

@[simp] theorem readable_word64 (expected : String) (k : UInt64) :
    ((word64 expected).write k).Readable n :=
  (readable_count expected).2 k.toNat_lt

@[simp] theorem readable_optional_string (s? : Option String) :
    ((optional string).write s?).Readable n := by
  cases s? with
  | none => exact Json.readable_null
  | some s => exact Json.readable_str s

@[simp] theorem readable_optional_json {value? : Option Json} :
    ((optional json).write value?).Readable n ↔ ∀ value ∈ value?, value.Readable n := by
  cases value? with
  | none => simp [optional]
  | some value => simp [optional, json]

@[simp] theorem readable_list {vs : List α} :
    ((list codec).write vs).Readable (n + 1) ↔ ∀ v ∈ vs, (codec.write v).Readable n :=
  Json.readable_arr.trans List.forall_mem_map

@[simp] theorem readable_pair {codec' : Codec β} {pair : α × β} :
    ((Record.pairCodec codec codec').write pair).Readable (n + 1) ↔
      (codec.write pair.1).Readable n ∧ (codec'.write pair.2).Readable n :=
  Json.readable_arr.trans (by simp)

@[simp] theorem readable_codec {ρ : Type} {fields : Record.Fields ρ} (expected : String) {vs : ρ} :
    ((Record.codec expected fields).write vs).Readable (n + 1) ↔
      ∀ member ∈ fields.members vs, member.2.Readable n :=
  Json.readable_obj

/-! ## Texts -/

/-- What a codec reads from the text of a value that is not too deep. -/
theorem decode_text {value : Json} (h : value.Readable depthLimit) (codec : Codec α) :
    codec.decode value.text = codec.read value.shown := by
  rw [decode, Json.ofText_shown h]
  cases codec.read value.shown <;> rfl

/-- What is given for a value is decoded from the text of the value. -/
theorem decode_encode_of_gives (hreadable : (codec.write v).Readable depthLimit)
    (h : codec.Gives v w) : codec.decode (codec.encode v) = .ok w :=
  (decode_text hreadable codec).trans h

theorem read_map (there : β → α) (back : α → β) (draft : Draft) :
    (codec.map there back).read draft = (codec.read draft).map back := rfl

theorem decode_map (there : β → α) (back : α → β) (text : String) :
    (codec.map there back).decode text = (codec.decode text).map back := by
  rw [decode, decode, read_map]
  cases codec.read (Document.ofText text).root with
  | error e => rfl
  | ok v => cases (Document.ofText text).trailing <;> rfl

/-! ## Single values -/

theorem gives_map {there : β → α} {back : α → β} {v : β} (h : codec.Gives (there v) w) :
    (codec.map there back).Gives v (back w) :=
  map_eq_ok.2 ⟨w, h, rfl⟩

theorem gives_stringAs (expected s : String) : (stringAs expected).Gives s s := rfl

theorem gives_integer {expected : String} {low high n : ℤ} (h : low ≤ n ∧ n ≤ high)
    (hlow : -9223372036854775808 ≤ low) (hhigh : high < 18446744073709551616) :
    (integer expected low high).Gives n n := by
  have hshown : ((integer expected low high).write n).shown = .num (.ok (.int n)) :=
    Json.shown_int ⟨by omega, by omega⟩
  rw [Gives, hshown]
  exact if_pos h

theorem gives_int64 {n : ℤ} (h : -9223372036854775808 ≤ n ∧ n ≤ 9223372036854775807) :
    int64.Gives n n :=
  gives_integer h (by decide) (by decide)

theorem gives_count (expected : String) {n : ℕ} (h : n < 18446744073709551616) :
    (count expected).Gives n n :=
  gives_map (gives_integer (show 0 ≤ (n : ℤ) ∧ (n : ℤ) ≤ _ by omega) (by decide) (by decide))

theorem gives_word32 (n : UInt32) : word32.Gives n n := by
  have hn : n.toNat < 4294967296 := n.toNat_lt
  have h : word32.Gives n (.ofNat (n.toNat : ℤ).toNat) :=
    gives_map (gives_integer (show 0 ≤ (n.toNat : ℤ) ∧ (n.toNat : ℤ) ≤ _ by omega) (by decide)
      (by decide))
  rwa [Int.toNat_natCast, UInt32.ofNat_toNat] at h

theorem gives_word64 (expected : String) (n : UInt64) : (word64 expected).Gives n n := by
  have hgives : (count expected).Gives n.toNat n.toNat := gives_count expected n.toNat_lt
  have h : (word64 expected).Gives n (.ofNat n.toNat) := gives_map hgives
  rwa [UInt64.ofNat_toNat] at h

theorem read_instant (s : String) : instant.read (Json.str s).shown =
    (Instant.readLenient s).mapError Record.Fault.timestamp := rfl

theorem gives_instant (t : Instant) : instant.Gives t t :=
  (read_instant _).trans (mapError_eq_ok.2 t.readLenient_recordText)

/-! ## Options, lists and pairs -/

theorem gives_none : (optional codec).Gives none none := rfl

/-- Anything but `null` is read as it is without the option. -/
theorem read_optional_of_ne {draft : Draft} (h : draft ≠ .null) :
    (optional codec).read draft = (codec.read draft).map some := by
  cases draft <;> first | contradiction | rfl

theorem gives_some (h : codec.Gives v w) (hne : (codec.write v).shown ≠ .null) :
    (optional codec).Gives (some v) (some w) :=
  (read_optional_of_ne hne).trans (map_eq_ok.2 ⟨w, h, rfl⟩)

theorem gives_optional_string (s? : Option String) : (optional string).Gives s? s? := by
  cases s? with
  | none => exact gives_none
  | some s => exact gives_some (gives_stringAs _ s) nofun

/-- Metadata without doubles are read as they were written, except that `null` is read as none. -/
theorem gives_metadata {metadata : Option Json} (h : ∀ value ∈ metadata, value.Ordered) :
    (optional json).Gives metadata (metadata.bind Json.unlessNull) := by
  cases metadata with
  | none => exact gives_none
  | some value =>
    have hgives : json.Gives value value :=
      mapError_eq_ok.2 (Json.value_draft_reread value (h value rfl))
    cases value with
    | null => rfl
    | _ => exact gives_some hgives nofun

theorem gives_list {vs ws : List α} (h : List.Forall₂ codec.Gives vs ws) :
    (list codec).Gives vs ws := by
  have hitems : (vs.map fun v => (codec.write v).shown).mapM codec.read = .ok ws :=
    mapM_eq_ok.2 (List.forall₂_map_left_iff.2 h)
  rw [Gives, list, Json.shown_arr, List.map_map]
  change ((vs.map fun v => (codec.write v).shown).mapM codec.read >>= _) = _
  rw [hitems]
  rfl

theorem gives_pair {codec' : Codec β} {v' w' : β} (h : codec.Gives v w) (h' : codec'.Gives v' w') :
    (Record.pairCodec codec codec').Gives (v, v') (w, w') := by
  have hread : codec.read (codec.write v).shown = .ok w := h
  have hread' : codec'.read (codec'.write v').shown = .ok w' := h'
  simp [Gives, Record.pairCodec, Json.shown_arr, Record.checkDepth, Record.Fields.fromItems, hread,
    hread', Record.checkClosed]

/-! ## Nesting -/

/-- Values of some depth at most nest no deeper than the limit wherever they are read. -/
theorem heeds_of_depth_le (h : ∀ v, (codec.write v).depth ≤ 126) : codec.Heeds :=
  fun {v _ _} _ _ => Nat.add_le_add_left (h v) 1

theorem heeds_of_flat (h : ∀ v, (codec.write v).depth = 0) : codec.Heeds :=
  heeds_of_depth_le fun v => (h v).trans_le (Nat.zero_le _)

theorem heeds_list (h : ∀ v, (codec.write v).depth ≤ 125) : (list codec).Heeds :=
  heeds_of_depth_le fun vs => by
    have hitems : ∀ item ∈ vs.map codec.write, item.depth ≤ 125 :=
      List.forall_mem_map.2 fun v _ => h v
    exact Nat.succ_le_succ (Json.depthOfItems_le_iff.2 hitems)

theorem heeds_optional_string : (optional string).Heeds :=
  heeds_of_flat fun s? => by cases s? <;> rfl

/-- Metadata are read for their value, and so not where they nest too deeply. -/
theorem heeds_metadata : (optional json).Heeds := by
  intro metadata w draft hshows hread
  cases metadata with
  | none => decide
  | some value =>
    by_cases hnull : draft = .null
    · subst hnull
      exact hshows.within (v := .null) rfl (by decide)
    · rw [read_optional_of_ne hnull] at hread
      obtain ⟨v, hv, -⟩ := map_eq_ok.1 hread
      exact hshows.within (mapError_eq_ok.1 hv) (by decide)

end Codec

end Ripple
