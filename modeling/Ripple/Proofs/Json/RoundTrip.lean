import Ripple.Json.Reader
import Ripple.Proofs.Json.Decimals
import Ripple.Proofs.Json.Quoted
import Mathlib.Data.String.Basic

/-!
# Reading values back

The text of a value is read as a value of the same form (`valueAt_chars`), each number as the
one that its own text is read as (`reread`). What can go wrong is depth alone: a value is read if
and only if it nests no deeper than the limit (`exists_parse_text_iff`). Integers and strings
are read as they were, so a value without doubles whose members are sorted is the one that is
read, if any is (`eq_of_parse_text`).
-/

namespace Ripple.Json

variable {fuel depth : ℕ} {rest : List Char}

theorem skipBlanks_cons {c : Char} (h : isBlank c = false) (rest : List Char) :
    skipBlanks (c :: rest) = c :: rest := by
  rw [skipBlanks, List.dropWhile_cons_of_neg (by simp [h])]

/-- What a number is when it is read from its text. -/
def rereadNumber (n : JsonNumber) : JsonNumber :=
  match valueAt 1 0 (numberChars n) with
  | (.num (.ok n'), _) => n'
  | _ => n

mutual

/-- What a value is when it is read from its text. -/
def reread : Json → Json
  | .num n => .num (rereadNumber n)
  | .arr items => .arr (rereadItems items)
  | .obj members => .obj (rereadMembers members)
  | value => value
termination_by structural value => value

/-- What some items are when they are read from their text. -/
def rereadItems : List Json → List Json
  | [] => []
  | item :: items => item.reread :: rereadItems items
termination_by structural items => items

/-- What some members are when they are read from their text. -/
def rereadMembers : List (String × Json) → List (String × Json)
  | [] => []
  | member :: members => rereadMember member :: rereadMembers members
termination_by structural members => members

/-- What a member is when it is read from its text. -/
def rereadMember : String × Json → String × Json
  | (key, value) => (key, value.reread)
termination_by structural member => member

end

/-- A draft of a value that lies inside `depth` arrays and objects: it is that of a value which
    has been read already, except for marks where it is too deep, and it has no value where it
    is. -/
structure Draft.Shows (depth : ℕ) (value : Json) (draft : Draft) : Prop where
  eq : depth + value.depth ≤ depthLimit → draft = value.reread.draft
  within {v : Json} : draft.value = .ok v → depth ≤ depthLimit → depth + value.depth ≤ depthLimit
  value {v : Json} : draft.value = .ok v → value.reread.draft.value = .ok v

/-- The same of the drafts of some items. -/
structure Draft.ShowsItems (depth : ℕ) (items : List Json) (drafts : List Draft) : Prop where
  eq : depth + depthOfItems items ≤ depthLimit → drafts = draftItems (rereadItems items)
  within {vs : List Json} : itemValues drafts = .ok vs → depth ≤ depthLimit →
    depth + depthOfItems items ≤ depthLimit
  value {vs : List Json} : itemValues drafts = .ok vs →
    itemValues (draftItems (rereadItems items)) = .ok vs

/-- The same of the drafts of some members. -/
structure Draft.ShowsMembers (depth : ℕ) (members : List (String × Json))
    (drafts : List (Except Fault String × Draft)) : Prop where
  eq : depth + depthOfMembers members ≤ depthLimit → drafts = draftMembers (rereadMembers members)
  within {vs : List (String × Json)} : memberValues drafts = .ok vs → depth ≤ depthLimit →
    depth + depthOfMembers members ≤ depthLimit
  value {vs : List (String × Json)} : memberValues drafts = .ok vs →
    memberValues (draftMembers (rereadMembers members)) = .ok vs

namespace Draft

variable {item value : Json} {items : List Json} {key : String} {members : List (String × Json)}
  {draft : Draft} {drafts : List Draft} {memberDrafts : List (Except Fault String × Draft)}

theorem Shows.leaf (hdepth : value.depth = 0) (h : draft = value.reread.draft) :
    Shows depth value draft :=
  ⟨fun _ => h, fun _ hle => by rwa [hdepth], fun hv => h ▸ hv⟩

theorem ShowsItems.nil : ShowsItems depth [] [] := ⟨fun _ => rfl, fun _ hle => hle, id⟩

theorem ShowsItems.cons (h : Shows depth item draft) (hs : ShowsItems depth items drafts) :
    ShowsItems depth (item :: items) (draft :: drafts) where
  eq hdepth := by
    rw [depthOfItems] at hdepth
    rw [h.eq (by omega), hs.eq (by omega)]
    rfl
  within {vs} hvs hle := by
    obtain ⟨v, hv, hvs⟩ := bind_eq_ok.1 hvs
    obtain ⟨vs', hvs', -⟩ := bind_eq_ok.1 hvs
    have := h.within hv hle
    have := hs.within hvs' hle
    rw [depthOfItems]
    omega
  value {vs} hvs := by
    obtain ⟨v, hv, hvs⟩ := bind_eq_ok.1 hvs
    obtain ⟨vs', hvs', hcons⟩ := bind_eq_ok.1 hvs
    exact bind_eq_ok.2 ⟨v, h.value hv, bind_eq_ok.2 ⟨vs', hs.value hvs', hcons⟩⟩

theorem ShowsMembers.nil : ShowsMembers depth [] [] := ⟨fun _ => rfl, fun _ hle => hle, id⟩

theorem ShowsMembers.cons (h : Shows depth value draft)
    (hs : ShowsMembers depth members memberDrafts) :
    ShowsMembers depth ((key, value) :: members) ((.ok key, draft) :: memberDrafts) where
  eq hdepth := by
    rw [depthOfMembers, depthOfMember] at hdepth
    rw [h.eq (by omega), hs.eq (by omega)]
    rfl
  within {vs} hvs hle := by
    obtain ⟨member, hmember, hvs⟩ := bind_eq_ok.1 hvs
    obtain ⟨k, hk, hmember⟩ := bind_eq_ok.1 hmember
    obtain ⟨v, hv, -⟩ := bind_eq_ok.1 hmember
    obtain ⟨vs', hvs', -⟩ := bind_eq_ok.1 hvs
    have := h.within hv hle
    have := hs.within hvs' hle
    rw [depthOfMembers, depthOfMember]
    omega
  value {vs} hvs := by
    obtain ⟨member, hmember, hvs⟩ := bind_eq_ok.1 hvs
    obtain ⟨k, hk, hmember⟩ := bind_eq_ok.1 hmember
    obtain ⟨v, hv, hpair⟩ := bind_eq_ok.1 hmember
    obtain ⟨vs', hvs', hcons⟩ := bind_eq_ok.1 hvs
    exact bind_eq_ok.2 ⟨member, bind_eq_ok.2 ⟨k, hk, bind_eq_ok.2 ⟨v, h.value hv, hpair⟩⟩,
      bind_eq_ok.2 ⟨vs', hs.value hvs', hcons⟩⟩

/-- Drafts of members one by one: the keys have been read. -/
def ShowsEach (depth : ℕ) (members : List (String × Json))
    (drafts : List (Except Fault String × Draft)) : Prop :=
  List.Forall₂ (fun member draft => draft.1 = .ok member.1 ∧ Shows depth member.2 draft.2) members
    drafts

theorem ShowsEach.showsMembers (h : ShowsEach depth members memberDrafts) :
    ShowsMembers depth members memberDrafts := by
  induction h with
  | nil => exact .nil
  | @cons member draft _ _ h _ ih =>
    obtain ⟨key, value⟩ := member
    obtain ⟨_, draft⟩ := draft
    obtain ⟨rfl, h⟩ := h
    exact .cons h ih

/-- An array has a value if and only if it is not too deep and its items have values. -/
theorem value_arr_eq_ok {v : Json} :
    (arr (depthMark depth rest) drafts none).value = .ok v ↔
      depth ≠ depthLimit ∧ ∃ vs, itemValues drafts = .ok vs ∧ v = .arr vs := by
  rw [depthMark]
  split
  case isTrue hdeep => simp [Draft.value, hdeep]
  case isFalse hne =>
    refine bind_eq_ok.trans ⟨?_, ?_⟩
    · rintro ⟨vs, hvs, hv⟩
      exact ⟨hne, vs, hvs, (Except.ok.inj hv).symm⟩
    · rintro ⟨-, vs, hvs, rfl⟩
      exact ⟨vs, hvs, rfl⟩

/-- An object has a value if and only if it is not too deep and its members have values. -/
theorem value_obj_eq_ok {v : Json} :
    (obj (depthMark depth rest) memberDrafts none).value = .ok v ↔
      depth ≠ depthLimit ∧ ∃ vs, memberValues memberDrafts = .ok vs ∧ v = ofMembers vs := by
  rw [depthMark]
  split
  case isTrue hdeep => simp [Draft.value, hdeep]
  case isFalse hne =>
    refine bind_eq_ok.trans ⟨?_, ?_⟩
    · rintro ⟨vs, hvs, hv⟩
      exact ⟨hne, vs, hvs, (Except.ok.inj hv).symm⟩
    · rintro ⟨-, vs, hvs, rfl⟩
      exact ⟨vs, hvs, rfl⟩

theorem Shows.arr (h : ShowsItems (depth + 1) items drafts) (rest : List Char) :
    Shows depth (.arr items) (.arr (depthMark depth rest) drafts none) where
  eq hdepth := by
    rw [Json.depth] at hdepth
    rw [h.eq (by omega), depthMark, if_neg (by omega)]
    rfl
  within {v} hv hle := by
    obtain ⟨hne, vs, hvs, -⟩ := value_arr_eq_ok.1 hv
    have := h.within hvs (by omega)
    rw [Json.depth]
    omega
  value {v} hv := by
    obtain ⟨-, vs, hvs, rfl⟩ := value_arr_eq_ok.1 hv
    exact bind_eq_ok.2 ⟨vs, h.value hvs, rfl⟩

theorem Shows.obj (h : ShowsMembers (depth + 1) members memberDrafts) (rest : List Char) :
    Shows depth (.obj members) (.obj (depthMark depth rest) memberDrafts none) where
  eq hdepth := by
    rw [Json.depth] at hdepth
    rw [h.eq (by omega), depthMark, if_neg (by omega)]
    rfl
  within {v} hv hle := by
    obtain ⟨hne, vs, hvs, -⟩ := value_obj_eq_ok.1 hv
    have := h.within hvs (by omega)
    rw [Json.depth]
    omega
  value {v} hv := by
    obtain ⟨-, vs, hvs, rfl⟩ := value_obj_eq_ok.1 hv
    exact bind_eq_ok.2 ⟨vs, h.value hvs, rfl⟩

end Draft

/-! ## Texts -/

mutual

/-- Whether all numbers are of 64 bits. -/
def Sound : Json → Prop
  | .num n => n.Fits
  | .arr items => SoundItems items
  | .obj members => SoundMembers members
  | _ => True
termination_by structural value => value

/-- Whether all numbers of some items are of 64 bits. -/
def SoundItems : List Json → Prop
  | [] => True
  | item :: items => item.Sound ∧ SoundItems items
termination_by structural items => items

/-- Whether all numbers of some members are of 64 bits. -/
def SoundMembers : List (String × Json) → Prop
  | [] => True
  | member :: members => SoundMember member ∧ SoundMembers members
termination_by structural members => members

/-- Whether all numbers of a member are of 64 bits. -/
def SoundMember : String × Json → Prop
  | (_, value) => value.Sound
termination_by structural member => member

end

/-- The text of a value begins with something that is neither blank nor a bracket that closes. -/
theorem exists_chars_eq_cons : ∀ {value : Json}, value.Sound →
    ∃ c rest, value.chars = c :: rest ∧ isBlank c = false ∧ c ≠ ']'
  | .null, _ => ⟨_, _, rfl, rfl, by decide⟩
  | .bool true, _ => ⟨_, _, rfl, rfl, by decide⟩
  | .bool false, _ => ⟨_, _, rfl, rfl, by decide⟩
  | .num n, h => by
    obtain ⟨c, cs, hcs, hc⟩ := exists_numberChars_eq_cons (show n.Fits from h)
    refine ⟨c, cs, hcs, ?_⟩
    rcases hc with rfl | hc
    · decide
    · have hne (d : Char) (hd : ¬d.isDigit) : c ≠ d := fun heq => hd (heq ▸ hc)
      simp [isBlank, hne ' ' (by decide), hne '\t' (by decide), hne '\n' (by decide),
        hne '\r' (by decide), hne ']' (by decide)]
  | .str _, _ => ⟨_, _, rfl, rfl, by decide⟩
  | .arr [], _ => ⟨_, _, rfl, rfl, by decide⟩
  | .arr (_ :: _), _ => ⟨_, _, rfl, rfl, by decide⟩
  | .obj [], _ => ⟨_, _, rfl, rfl, by decide⟩
  | .obj (_ :: _), _ => ⟨_, _, rfl, rfl, by decide⟩

theorem follows_itemChars (items : List Json) (rest : List Char) :
    Follows (itemChars items ++ rest) := by
  cases items with
  | nil => exact .cons (by decide) rest
  | cons item items => exact .cons (by decide) _

theorem follows_moreMemberChars (members : List (String × Json)) (rest : List Char) :
    Follows (moreMemberChars members ++ rest) := by
  cases members with
  | nil => exact .cons (by decide) rest
  | cons member members => exact .cons (by decide) _

/-- A key is read back, with the colon after it. -/
theorem keyAt_quoted (key : String) (rest : List Char) :
    keyAt (quoted key ++ ':' :: rest) = .ok (.ok key, .ok rest) := by
  have hbody : quoted key ++ ':' :: rest =
      '"' :: (key.toList.flatMap escape ++ '"' :: ':' :: rest) := by
    simp [quoted]
  rw [hbody, keyAt, if_pos rfl, stringBody_quoted, ok_bind]
  rfl

/-! ## Steps of the reading -/

theorem rereadNumber_int {n : ℤ} (h : -9223372036854775808 ≤ n ∧ n < 18446744073709551616) :
    rereadNumber (.int n) = .int n := by
  have hread : valueAt 1 0 (numberChars (.int n) ++ []) = _ := valueAt_int h .nil
  rw [List.append_nil] at hread
  rw [rereadNumber, hread]

theorem valueAt_number {n : JsonNumber} (h : n.Fits) (hrest : Follows rest) :
    valueAt (fuel + 1) depth (numberChars n ++ rest) =
      (.num (.ok (rereadNumber n)), some rest) := by
  cases n with
  | int n => rw [rereadNumber_int h, valueAt_int h hrest]
  | real x =>
    -- What is read does not depend on what follows, so it is what the text alone gives.
    obtain ⟨x', hx'⟩ := exists_valueAt_real h
    have hread := hx' 0 0 [] .nil
    rw [List.append_nil] at hread
    rw [rereadNumber, hread]
    exact hx' fuel depth rest hrest

theorem valueAt_string (fuel depth : ℕ) (s : String) (rest : List Char) :
    valueAt (fuel + 1) depth (quoted s ++ rest) = (.str (.ok s), some rest) := by
  have hbody : quoted s ++ rest = '"' :: (s.toList.flatMap escape ++ '"' :: rest) := by
    simp [quoted]
  rw [hbody]
  change Piece.ofLeaf .str (stringBody [] none none (s.toList.flatMap escape ++ '"' :: rest)) = _
  rw [stringBody_quoted]
  rfl

theorem valueAt_array {items : List Draft} {rest after : List Char}
    (h : itemsAt fuel (depth + 1) true rest = (items, none, some after)) :
    valueAt (fuel + 1) depth ('[' :: rest) =
      (.arr (depthMark depth rest) items none, some after) := by
  have hblank : skipBlanks ('[' :: rest) = '[' :: rest := rfl
  simp only [valueAt, hblank, if_true, h]

theorem valueAt_object {members : List (Except Fault String × Draft)} {rest after : List Char}
    (h : membersAt fuel (depth + 1) true rest = (members, none, some after)) :
    valueAt (fuel + 1) depth ('\x7b' :: rest) =
      (.obj (depthMark depth rest) members none, some after) := by
  have hblank : skipBlanks ('\x7b' :: rest) = '\x7b' :: rest := rfl
  have hbracket : '\x7b' ≠ '[' := by decide
  simp only [valueAt, hblank, hbracket, if_true, if_false, h]

theorem itemsAt_close (first : Bool) :
    itemsAt (fuel + 1) depth first (']' :: rest) = ([], none, some rest) := rfl

theorem itemsAt_first {item : Json} (h : item.Sound) (rest : List Char) :
    itemsAt (fuel + 1) depth true (item.chars ++ rest) =
      itemAt fuel depth (item.chars ++ rest) := by
  obtain ⟨c, cs, hchars, hblank, hc⟩ := exists_chars_eq_cons h
  rw [hchars, List.cons_append]
  simp only [itemsAt, skipBlanks_cons hblank, hc, if_false, if_true]

theorem itemsAt_comma {item : Json} (h : item.Sound) (rest : List Char) :
    itemsAt (fuel + 1) depth false (',' :: (item.chars ++ rest)) =
      itemAt fuel depth (item.chars ++ rest) := by
  obtain ⟨c, cs, hchars, hblank, hc⟩ := exists_chars_eq_cons h
  have hcomma : skipBlanks (',' :: c :: (cs ++ rest)) = ',' :: c :: (cs ++ rest) := rfl
  have hclose : ',' ≠ ']' := by decide
  rw [hchars, List.cons_append]
  simp only [itemsAt, hcomma, hclose, skipBlanks_cons hblank, hc, if_false, if_true,
    Bool.false_eq_true]

theorem itemAt_eq {cs after : List Char} {item : Draft} {items : List Draft}
    (hitem : valueAt fuel depth cs = (item, some rest))
    (hitems : itemsAt fuel depth false rest = (items, none, some after)) :
    itemAt (fuel + 1) depth cs = (item :: items, none, some after) := by
  simp only [itemAt, hitem, hitems]

theorem membersAt_close (first : Bool) :
    membersAt (fuel + 1) depth first ('\x7d' :: rest) = ([], none, some rest) := rfl

theorem membersAt_first (key : String) (rest : List Char) :
    membersAt (fuel + 1) depth true (quoted key ++ rest) =
      memberAt fuel depth (quoted key ++ rest) := rfl

theorem membersAt_comma (key : String) (rest : List Char) :
    membersAt (fuel + 1) depth false (',' :: (quoted key ++ rest)) =
      memberAt fuel depth (quoted key ++ rest) := rfl

theorem memberAt_eq {key : String} {after cs : List Char} {value : Draft}
    {members : List (Except Fault String × Draft)}
    (hvalue : valueAt fuel depth cs = (value, some rest))
    (hmembers : membersAt fuel depth false rest = (members, none, some after)) :
    memberAt (fuel + 1) depth (quoted key ++ ':' :: cs) =
      ((.ok key, value) :: members, none, some after) := by
  simp only [memberAt, keyAt_quoted, hvalue, hmembers]

/-- An object is read from its first member on. -/
theorem valueAt_members (key : String) {value : Json} {members : List (String × Json)}
    {draft : Draft} {drafts : List (Except Fault String × Draft)}
    (hdraft : valueAt fuel (depth + 1) (value.chars ++ (moreMemberChars members ++ rest)) =
      (draft, some (moreMemberChars members ++ rest)))
    (hdrafts : membersAt fuel (depth + 1) false (moreMemberChars members ++ rest) =
      (drafts, none, some rest)) :
    ∃ after, valueAt (fuel + 3) depth ((obj ((key, value) :: members)).chars ++ rest) =
      (.obj (depthMark depth after) ((.ok key, draft) :: drafts) none, some rest) := by
  have htext : (obj ((key, value) :: members)).chars ++ rest =
      '\x7b' :: (quoted key ++ ':' :: (value.chars ++ (moreMemberChars members ++ rest))) := by
    simp [chars, memberChars]
  rw [htext]
  exact ⟨_, valueAt_object ((membersAt_first key _).trans (memberAt_eq hdraft hdrafts))⟩

/-! ## Reading -/

mutual

/-- A value is read from its text. -/
theorem valueAt_chars : ∀ (value : Json) (fuel depth : ℕ) (rest : List Char), value.Sound →
    Follows rest → 3 * value.chars.length ≤ fuel →
    ∃ draft, valueAt fuel depth (value.chars ++ rest) = (draft, some rest) ∧
      draft.Shows depth value
  | value, 0, _, _, hs, _, hfuel => by
    -- A text is not empty, so that there is fuel for it.
    obtain ⟨c, cs, hchars, -⟩ := exists_chars_eq_cons hs
    rw [hchars, List.length_cons] at hfuel
    omega
  | .null, fuel + 1, depth, rest, _, _, _ => ⟨.null, rfl, .leaf rfl rfl⟩
  | .bool true, fuel + 1, depth, rest, _, _, _ => ⟨.bool true, rfl, .leaf rfl rfl⟩
  | .bool false, fuel + 1, depth, rest, _, _, _ => ⟨.bool false, rfl, .leaf rfl rfl⟩
  | .num n, fuel + 1, depth, rest, hn, hrest, _ =>
    ⟨.num (.ok (rereadNumber n)), valueAt_number hn hrest, .leaf rfl rfl⟩
  | .str s, fuel + 1, depth, rest, _, _, _ =>
    ⟨.str (.ok s), valueAt_string fuel depth s rest, .leaf rfl rfl⟩
  | .arr [], fuel + 1, depth, rest, _, _, hfuel => by
    obtain ⟨fuel, rfl⟩ : ∃ f, fuel = f + 1 := ⟨fuel - 1, by
      simp only [chars, List.length_cons, List.length_nil] at hfuel; omega⟩
    exact ⟨_, valueAt_array (itemsAt_close true), .arr .nil _⟩
  | .arr (item :: items), fuel + 1, depth, rest, hs, hrest, hfuel => by
    -- A bracket and a comma pay for the array, for the list of its items, and for an item.
    simp only [chars, List.length_cons, List.length_append] at hfuel
    obtain ⟨fuel, rfl⟩ : ∃ f, fuel = f + 2 := ⟨fuel - 2, by omega⟩
    obtain ⟨draft, hdraft, hshows⟩ := valueAt_chars item fuel (depth + 1) (itemChars items ++ rest)
      hs.1 (follows_itemChars items rest) (by omega)
    obtain ⟨drafts, hdrafts, hshowsItems⟩ := itemsAt_itemChars items fuel (depth + 1) rest hs.2
      (by omega)
    have htext : (arr (item :: items)).chars ++ rest =
        '[' :: (item.chars ++ (itemChars items ++ rest)) := by simp [chars]
    rw [htext]
    exact ⟨_, valueAt_array ((itemsAt_first hs.1 _).trans (itemAt_eq hdraft hdrafts)),
      .arr (.cons hshows hshowsItems) _⟩
  | .obj [], fuel + 1, depth, rest, _, _, hfuel => by
    obtain ⟨fuel, rfl⟩ : ∃ f, fuel = f + 1 := ⟨fuel - 1, by
      simp only [chars, List.length_cons, List.length_nil] at hfuel; omega⟩
    exact ⟨_, valueAt_object (membersAt_close true), .obj .nil _⟩
  | .obj ((key, value) :: members), fuel + 1, depth, rest, hs, hrest, hfuel => by
    simp only [chars, memberChars, List.length_cons, List.length_append] at hfuel
    obtain ⟨fuel, rfl⟩ : ∃ f, fuel = f + 2 := ⟨fuel - 2, by omega⟩
    obtain ⟨draft, hdraft, hshows⟩ := valueAt_chars value fuel (depth + 1)
      (moreMemberChars members ++ rest) hs.1 (follows_moreMemberChars members rest) (by omega)
    obtain ⟨drafts, hdrafts, hshowsEach⟩ := membersAt_moreMemberChars members fuel (depth + 1)
      rest hs.2 (by omega)
    obtain ⟨after, hobject⟩ := valueAt_members key hdraft hdrafts
    exact ⟨_, hobject, .obj (.cons hshows hshowsEach.showsMembers) after⟩

/-- Items are read from their text, up to the bracket. -/
theorem itemsAt_itemChars : ∀ (items : List Json) (fuel depth : ℕ) (rest : List Char),
    SoundItems items → 3 * (itemChars items).length ≤ fuel →
    ∃ drafts, itemsAt fuel depth false (itemChars items ++ rest) = (drafts, none, some rest) ∧
      Draft.ShowsItems depth items drafts
  | [], fuel, depth, rest, _, hfuel => by
    obtain ⟨fuel, rfl⟩ : ∃ f, fuel = f + 1 := ⟨fuel - 1, by
      simp only [itemChars, List.length_cons, List.length_nil] at hfuel; omega⟩
    exact ⟨_, itemsAt_close false, .nil⟩
  | item :: items, fuel, depth, rest, hs, hfuel => by
    simp only [itemChars, List.length_cons, List.length_append] at hfuel
    obtain ⟨fuel, rfl⟩ : ∃ f, fuel = f + 2 := ⟨fuel - 2, by omega⟩
    obtain ⟨draft, hdraft, hshows⟩ := valueAt_chars item fuel depth (itemChars items ++ rest)
      hs.1 (follows_itemChars items rest) (by omega)
    obtain ⟨drafts, hdrafts, hshowsItems⟩ := itemsAt_itemChars items fuel depth rest hs.2
      (by omega)
    have htext : itemChars (item :: items) ++ rest =
        ',' :: (item.chars ++ (itemChars items ++ rest)) := by simp [itemChars]
    rw [htext]
    exact ⟨_, (itemsAt_comma hs.1 _).trans (itemAt_eq hdraft hdrafts), .cons hshows hshowsItems⟩

/-- Members are read from their text, up to the brace. -/
theorem membersAt_moreMemberChars : ∀ (members : List (String × Json)) (fuel depth : ℕ)
    (rest : List Char), SoundMembers members → 3 * (moreMemberChars members).length ≤ fuel →
    ∃ drafts, membersAt fuel depth false (moreMemberChars members ++ rest) =
      (drafts, none, some rest) ∧ Draft.ShowsEach depth members drafts
  | [], fuel, depth, rest, _, hfuel => by
    obtain ⟨fuel, rfl⟩ : ∃ f, fuel = f + 1 := ⟨fuel - 1, by
      simp only [moreMemberChars, List.length_cons, List.length_nil] at hfuel; omega⟩
    exact ⟨_, membersAt_close false, List.Forall₂.nil⟩
  | (key, value) :: members, fuel, depth, rest, hs, hfuel => by
    simp only [moreMemberChars, memberChars, List.length_cons, List.length_append] at hfuel
    obtain ⟨fuel, rfl⟩ : ∃ f, fuel = f + 2 := ⟨fuel - 2, by omega⟩
    obtain ⟨draft, hdraft, hshows⟩ := valueAt_chars value fuel depth
      (moreMemberChars members ++ rest) hs.1 (follows_moreMemberChars members rest) (by omega)
    obtain ⟨drafts, hdrafts, hshowsEach⟩ := membersAt_moreMemberChars members fuel depth rest
      hs.2 (by omega)
    have htext : moreMemberChars ((key, value) :: members) ++ rest =
        ',' :: (quoted key ++ ':' :: (value.chars ++ (moreMemberChars members ++ rest))) := by
      simp [moreMemberChars, memberChars]
    rw [htext]
    exact ⟨_, (membersAt_comma key _).trans (memberAt_eq hdraft hdrafts),
      .cons ⟨rfl, hshows⟩ hshowsEach⟩

end

/-! ## Values of drafts -/

/-- A member whose key is greater than all others is put at the end. -/
theorem put_eq_append {key : String} {value : Json} {sorted : List (String × Json)}
    (h : ∀ k ∈ sorted.map Prod.fst, k < key) : put key value sorted = sorted ++ [(key, value)] := by
  induction sorted with
  | nil => rfl
  | cons member rest ih =>
    obtain ⟨k, v⟩ := member
    rw [List.map_cons, List.forall_mem_cons] at h
    rw [put, if_neg (lt_asymm h.1), if_neg (ne_of_gt h.1), ih h.2, List.cons_append]

/-- Members that are sorted are put one after the other. -/
theorem foldl_put_eq_append {members : List (String × Json)} (sorted : List (String × Json))
    (h : ((sorted ++ members).map Prod.fst).Pairwise (· < ·)) :
    members.foldl (fun sorted member => put member.1 member.2 sorted) sorted =
      sorted ++ members := by
  induction members generalizing sorted with
  | nil => rw [List.foldl_nil, List.append_nil]
  | cons member members ih =>
    have hput : put member.1 member.2 sorted = sorted ++ [member] := by
      refine put_eq_append fun k hk => ?_
      rw [List.map_append, List.pairwise_append] at h
      exact h.2.2 k hk member.1 (by simp)
    rw [List.foldl_cons, hput, ih _ (by simpa using h), List.append_assoc]
    rfl

/-- Members that are sorted stay as they are. -/
theorem ofMembers_of_sorted {members : List (String × Json)}
    (h : (members.map Prod.fst).Pairwise (· < ·)) : ofMembers members = .obj members :=
  congrArg obj (foldl_put_eq_append [] h)

mutual

/-- The draft of a value that has been read already has a value. -/
theorem exists_value_draft : ∀ value : Json, ∃ v, value.draft.value = .ok v
  | .null => ⟨_, rfl⟩
  | .bool _ => ⟨_, rfl⟩
  | .num _ => ⟨_, rfl⟩
  | .str _ => ⟨_, rfl⟩
  | .arr items =>
    let ⟨vs, hvs⟩ := exists_itemValues_draftItems items
    ⟨.arr vs, bind_eq_ok.2 ⟨vs, hvs, rfl⟩⟩
  | .obj members =>
    let ⟨vs, hvs⟩ := exists_memberValues_draftMembers members
    ⟨ofMembers vs, bind_eq_ok.2 ⟨vs, hvs, rfl⟩⟩

theorem exists_itemValues_draftItems : ∀ items : List Json,
    ∃ vs, Draft.itemValues (draftItems items) = .ok vs
  | [] => ⟨[], rfl⟩
  | item :: items =>
    let ⟨v, hv⟩ := exists_value_draft item
    let ⟨vs, hvs⟩ := exists_itemValues_draftItems items
    ⟨v :: vs, bind_eq_ok.2 ⟨v, hv, bind_eq_ok.2 ⟨vs, hvs, rfl⟩⟩⟩

theorem exists_memberValues_draftMembers : ∀ members : List (String × Json),
    ∃ vs, Draft.memberValues (draftMembers members) = .ok vs
  | [] => ⟨[], rfl⟩
  | (key, value) :: members =>
    let ⟨v, hv⟩ := exists_value_draft value
    let ⟨vs, hvs⟩ := exists_memberValues_draftMembers members
    ⟨(key, v) :: vs, bind_eq_ok.2 ⟨(key, v), bind_eq_ok.2 ⟨key, rfl, bind_eq_ok.2 ⟨v, hv, rfl⟩⟩,
      bind_eq_ok.2 ⟨vs, hvs, rfl⟩⟩⟩

end

mutual

/-- A value whose numbers are integers and whose members are sorted is read as it was. -/
theorem value_draft_reread : ∀ value : Json, value.Ordered →
    value.reread.draft.value = .ok value
  | .null, _ => rfl
  | .bool _, _ => rfl
  | .num (.int n), h => by
    rw [reread, rereadNumber_int h]
    rfl
  | .str _, _ => rfl
  | .arr items, h => bind_eq_ok.2 ⟨items, itemValues_reread items h, rfl⟩
  | .obj members, h => by
    refine bind_eq_ok.2 ⟨members, memberValues_reread members h.2, ?_⟩
    dsimp only
    rw [ofMembers_of_sorted h.1]

theorem itemValues_reread : ∀ items : List Json, OrderedItems items →
    Draft.itemValues (draftItems (rereadItems items)) = .ok items
  | [], _ => rfl
  | item :: items, h => bind_eq_ok.2 ⟨item, value_draft_reread item h.1,
      bind_eq_ok.2 ⟨items, itemValues_reread items h.2, rfl⟩⟩

theorem memberValues_reread : ∀ members : List (String × Json), OrderedMembers members →
    Draft.memberValues (draftMembers (rereadMembers members)) = .ok members
  | [], _ => rfl
  | (key, value) :: members, h => bind_eq_ok.2 ⟨(key, value),
      bind_eq_ok.2 ⟨key, rfl, bind_eq_ok.2 ⟨value, value_draft_reread value h.1, rfl⟩⟩,
      bind_eq_ok.2 ⟨members, memberValues_reread members h.2, rfl⟩⟩

end

mutual

theorem Ordered.sound : ∀ value : Json, value.Ordered → value.Sound
  | .null, _ => trivial
  | .bool _, _ => trivial
  | .num (.int _), h => h
  | .str _, _ => trivial
  | .arr items, h => OrderedItems.sound items h
  | .obj members, h => OrderedMembers.sound members h.2

theorem OrderedItems.sound : ∀ items : List Json, OrderedItems items → SoundItems items
  | [], _ => trivial
  | item :: items, h => ⟨Ordered.sound item h.1, OrderedItems.sound items h.2⟩

theorem OrderedMembers.sound : ∀ members : List (String × Json), OrderedMembers members →
    SoundMembers members
  | [], _ => trivial
  | (_, value) :: members, h => ⟨Ordered.sound value h.1, OrderedMembers.sound members h.2⟩

end

/-! ## Whole texts -/

variable {value v : Json}

/-- The draft of a compact text. -/
theorem ofText_text (h : value.Sound) : ∃ draft, Document.ofText value.text = ⟨draft, none⟩ ∧
    draft.Shows 0 value := by
  obtain ⟨draft, hdraft, hshows⟩ := valueAt_chars value (3 * value.chars.length + 3) 0 [] h .nil
    (Nat.le_add_right _ _)
  rw [List.append_nil] at hdraft
  refine ⟨draft, ?_, hshows⟩
  rw [Document.ofText, text, String.toList_ofList, Document.ofChars, hdraft]
  rfl

/-- The draft of the compact text of an object, however deeply it nests. -/
theorem ofText_object {members : List (String × Json)} (h : SoundMembers members) :
    ∃ drafts, Document.ofText (obj members).text = ⟨.obj none drafts none, none⟩ ∧
      Draft.ShowsEach 1 members drafts := by
  have hread : ∃ drafts after, valueAt (3 * (obj members).chars.length + 3) 0
      ((obj members).chars ++ []) = (.obj (depthMark 0 after) drafts none, some []) ∧
        Draft.ShowsEach 1 members drafts := by
    match members, h with
    | [], _ => exact ⟨[], _, rfl, .nil⟩
    | (key, value) :: members, h =>
      have hlength : value.chars.length + (moreMemberChars members).length ≤
          (obj ((key, value) :: members)).chars.length := by
        simp only [chars, memberChars, List.length_cons, List.length_append]
        omega
      obtain ⟨draft, hdraft, hshows⟩ := valueAt_chars value
        (3 * (obj ((key, value) :: members)).chars.length) 1 (moreMemberChars members ++ []) h.1
        (follows_moreMemberChars members []) (by omega)
      obtain ⟨drafts, hdrafts, hshowsEach⟩ := membersAt_moreMemberChars members
        (3 * (obj ((key, value) :: members)).chars.length) 1 [] h.2 (by omega)
      obtain ⟨after, hobject⟩ := valueAt_members key hdraft hdrafts
      exact ⟨_, after, hobject, .cons ⟨rfl, hshows⟩ hshowsEach⟩
  obtain ⟨drafts, after, hread, hshowsEach⟩ := hread
  refine ⟨drafts, ?_, hshowsEach⟩
  rw [List.append_nil] at hread
  rw [Document.ofText, text, String.toList_ofList, Document.ofChars, hread]
  rfl

/-- A value that nests no deeper than the limit can be read from its text. -/
theorem exists_parse_text (h : value.Sound) (hdepth : value.depth ≤ depthLimit) :
    ∃ v, parse value.text = .ok v := by
  obtain ⟨draft, hdocument, hshows⟩ := ofText_text h
  obtain ⟨v, hv⟩ := exists_value_draft value.reread
  rw [← hshows.eq (by omega)] at hv
  exact ⟨v, mapError_eq_ok.2 (by rw [hdocument]; exact bind_eq_ok.2 ⟨v, hv, rfl⟩)⟩

/-- A value can be read from its text if and only if it nests no deeper than the limit. -/
theorem exists_parse_text_iff (h : value.Sound) :
    (∃ v, parse value.text = .ok v) ↔ value.depth ≤ depthLimit := by
  refine ⟨?_, exists_parse_text h⟩
  rintro ⟨v, hv⟩
  obtain ⟨draft, hdocument, hshows⟩ := ofText_text h
  rw [parse, mapError_eq_ok, hdocument] at hv
  obtain ⟨v', hv', -⟩ := bind_eq_ok.1 hv
  have := hshows.within hv' (Nat.zero_le _)
  omega

/-- If a value of integers can be read from its text, it is read as it was. -/
theorem eq_of_parse_text (h : value.Ordered) (hv : parse value.text = .ok v) : v = value := by
  obtain ⟨draft, hdocument, hshows⟩ := ofText_text (Ordered.sound value h)
  rw [parse, mapError_eq_ok, hdocument] at hv
  obtain ⟨v', hv', heq⟩ := bind_eq_ok.1 hv
  have := hshows.value hv'
  rw [value_draft_reread value h] at this
  rw [← Except.ok.inj heq, ← Except.ok.inj this]

end Ripple.Json
