import Ripple.FullText.Substring
import Mathlib

/-!
# Texts that a pattern describes

Escaped characters describe themselves, whatever they are (`like_escaped_append`), so
between two wildcards they describe the texts in which they stand side by side, and after
one those that end with them. What is left of the pattern of a sought text when it is
compared depends on whether the text holds a NUL (`comparable_pattern`). So a text is in
another if its folded characters are among the other's, or at its end if the text holds a
NUL (`Sought.isIn_ofText`).
-/

namespace Ripple.FullText

/-! ## Patterns -/

theorem anyTail_iff {passes : List Char → Bool} {text : List Char} :
    anyTail passes text = true ↔ ∃ tail, tail <:+ text ∧ passes tail = true := by
  induction text with
  | nil => simp [anyTail]
  | cons c rest ih => simp [anyTail, ih, List.suffix_cons_iff, or_and_right, exists_or]

theorem like_any {pattern text : List Char} :
    like ('%' :: pattern) text = true ↔ ∃ tail, tail <:+ text ∧ like pattern tail = true := by
  rw [like, anyTail_iff]

theorem like_any_nil (text : List Char) : like ['%'] text = true :=
  like_any.2 ⟨[], List.nil_suffix, rfl⟩

theorem escaped_cons (c : Char) (cs : List Char) :
    escaped (c :: cs) = (if isWild c then ['\\', c] else [c]) ++ escaped cs := List.flatMap_cons

/-- An escaped character describes itself, in either case. -/
theorem like_escaped_cons_cons (p c : Char) (cs pattern text : List Char) :
    like (escaped (p :: cs) ++ pattern) (c :: text) =
      (p.toLower == c.toLower && like (escaped cs ++ pattern) text) := by
  rw [escaped_cons]
  by_cases hp : isWild p
  · rw [if_pos hp]
    exact like.eq_6 p _ c text
  · -- A character that is not wild has none of the meanings that `like` tries first.
    rw [if_neg hp]
    simp only [isWild, Bool.or_eq_true, decide_eq_true_eq, not_or] at hp
    obtain ⟨⟨hany, hone⟩, hescape⟩ := hp
    exact like.eq_7 p _ c text hany hone (fun h _ => hescape h) (fun _ _ h _ => hescape h)

theorem like_escaped_cons_nil (p : Char) (cs pattern : List Char) :
    like (escaped (p :: cs) ++ pattern) [] = false := by
  rw [escaped_cons]
  by_cases hp : isWild p
  · rw [if_pos hp]
    exact like.eq_3 '\\' _ (by decide)
  · rw [if_neg hp]
    refine like.eq_3 p _ fun hany => hp ?_
    simp [isWild, hany]

/-- Escaped characters describe themselves, in either case. -/
theorem like_escaped_append {cs pattern text : List Char} :
    like (escaped cs ++ pattern) text = true ↔
      ∃ first rest, text = first ++ rest ∧ lowerCase first = lowerCase cs ∧
        like pattern rest = true := by
  induction cs generalizing text with
  | nil =>
    constructor
    · intro h
      exact ⟨[], text, rfl, rfl, h⟩
    · rintro ⟨first, rest, rfl, hfirst, h⟩
      rw [lowerCase, lowerCase, List.map_nil, List.map_eq_nil_iff] at hfirst
      rwa [hfirst]
  | cons p cs ih =>
    cases text with
    | nil =>
      rw [like_escaped_cons_nil]
      refine iff_of_false Bool.false_ne_true ?_
      rintro ⟨first, rest, htext, hfirst, -⟩
      rw [(List.append_eq_nil_iff.1 htext.symm).1] at hfirst
      cases hfirst
    | cons c text =>
      rw [like_escaped_cons_cons, Bool.and_eq_true, beq_iff_eq, ih]
      constructor
      · rintro ⟨hpc, first, rest, rfl, hfirst, h⟩
        refine ⟨c :: first, rest, rfl, ?_, h⟩
        rw [lowerCase, lowerCase, List.map_cons, List.map_cons, hpc]
        exact congrArg _ hfirst
      · rintro ⟨first, rest, htext, hfirst, h⟩
        cases first with
        | nil => cases hfirst
        | cons d first =>
          obtain ⟨rfl, rfl⟩ := List.cons.inj htext
          obtain ⟨hpc, hfirst⟩ := List.cons.inj hfirst
          exact ⟨hpc.symm, first, rest, rfl, hfirst, h⟩

/-- Escaped characters between wildcards describe the texts in which they stand side by side. -/
theorem like_any_escaped_any {cs text : List Char} :
    like ('%' :: (escaped cs ++ ['%'])) text = true ↔ lowerCase cs <:+: lowerCase text := by
  simp only [like_any, like_escaped_append, like_any_nil, and_true]
  constructor
  · rintro ⟨_, ⟨before, rfl⟩, first, after, rfl, hfirst⟩
    refine ⟨lowerCase before, lowerCase after, ?_⟩
    rw [← hfirst]
    simp only [lowerCase, List.map_append, List.append_assoc]
  · rintro ⟨before', after', htext⟩
    rw [List.append_assoc] at htext
    obtain ⟨before, tail, rfl, -, htail⟩ := List.map_eq_append_iff.1 htext.symm
    obtain ⟨first, after, rfl, hfirst, -⟩ := List.map_eq_append_iff.1 htail
    exact ⟨first ++ after, List.suffix_append _ _, first, after, rfl, hfirst⟩

/-- Escaped characters after a wildcard describe the texts that end with them. -/
theorem like_any_escaped {cs text : List Char} :
    like ('%' :: escaped cs) text = true ↔ lowerCase cs <:+ lowerCase text := by
  have hnil (rest : List Char) : like [] rest = true ↔ rest = [] := by
    rw [like, List.isEmpty_iff]
  rw [like_any, ← List.append_nil (escaped cs)]
  simp only [like_escaped_append, hnil]
  constructor
  · rintro ⟨_, ⟨before, rfl⟩, first, _, rfl, hfirst, rfl⟩
    refine ⟨lowerCase before, ?_⟩
    rw [← hfirst, List.append_nil]
    exact List.map_append.symm
  · rintro ⟨before', htext⟩
    obtain ⟨before, first, rfl, -, hfirst⟩ := List.map_eq_append_iff.1 htext.symm
    exact ⟨first, List.suffix_append _ _, first, [], (List.append_nil _).symm, hfirst, rfl⟩

/-! ## Letters -/

theorem isLower_toLower {c : Char} (h : c.isUpper) : c.toLower.isLower := by
  rw [Char.isLower_toLower_eq_isAlpha, Char.isAlpha, h, Bool.true_or]

/-- Wildcards have no case. -/
theorem isWild_toLower (c : Char) : isWild c.toLower = isWild c := by
  by_cases h : c.isUpper
  · have hlower := isLower_toLower h
    have hnot (d : Char) (hwild : isWild d = true) : d.isUpper = false ∧ d.isLower = false := by
      simp only [isWild, Bool.or_eq_true, decide_eq_true_eq] at hwild
      rcases hwild with (rfl | rfl) | rfl <;> decide
    have hupper : isWild c = false :=
      Bool.eq_false_iff.2 fun hwild => by simp [(hnot c hwild).1] at h
    have hlower : isWild c.toLower = false :=
      Bool.eq_false_iff.2 fun hwild => by simp [(hnot _ hwild).2] at hlower
    rw [hupper, hlower]
  · rw [Char.toLower_eq_of_not_isUpper h]

/-- A letter takes as many bytes in either case. -/
theorem utf8Size_toLower (c : Char) : c.toLower.utf8Size = c.utf8Size := by
  by_cases h : c.isUpper
  · have hlower := isLower_toLower h
    simp only [Char.isUpper, Char.isLower, Bool.and_eq_true, decide_eq_true_eq] at h hlower
    have hz : 'z'.val ≤ 127 ∧ 'Z'.val ≤ 127 := by decide
    rw [Char.utf8Size_eq_one_iff.2 (UInt32.le_trans hlower.2 hz.1),
      Char.utf8Size_eq_one_iff.2 (UInt32.le_trans h.2 hz.2)]
  · rw [Char.toLower_eq_of_not_isUpper h]

/-! ## Texts -/

/-- The characters of a text as they are compared, with ASCII letters in lower case. -/
def folded (text : String) : List Char := comparable (lowerCase text.toList)

theorem lowerCase_folded (text : String) : lowerCase (folded text) = folded text := by
  refine (List.map_congr_left fun c hc => ?_).trans (List.map_id _)
  -- What is compared is a letter in lower case, or stands for no character.
  obtain ⟨d, hd, rfl⟩ := List.mem_map.1 hc
  obtain ⟨e, -, rfl⟩ := List.mem_map.1 ((List.takeWhile_sublist _).subset hd)
  rw [standIn]
  split
  · rfl
  · exact Char.toLower_toLower_eq_toLower e

theorem comparable_cons (c : Char) (cs : List Char) :
    comparable (c :: cs) = if c = '\x00' then [] else standIn c :: comparable cs := by
  rw [comparable, List.takeWhile_cons]
  by_cases h : c = '\x00' <;> simp [h, comparable]

theorem standIn_eq_self {c : Char} (h : isWild c) : standIn c = c := by
  simp only [isWild, Bool.or_eq_true, decide_eq_true_eq] at h
  rcases h with (rfl | rfl) | rfl <;> rfl

theorem isWild_standIn (c : Char) : isWild (standIn c) = isWild c := by
  rw [standIn]
  split
  · rename_i h
    rcases h with rfl | rfl <;> rfl
  · rfl

/-- Escaping and comparing do not interfere, but a NUL hides what follows. -/
theorem comparable_escaped_append (cs rest : List Char) :
    comparable (escaped cs ++ rest) =
      escaped (comparable cs) ++ if '\x00' ∈ cs then [] else comparable rest := by
  induction cs with
  | nil => rfl
  | cons c cs ih =>
    rw [escaped_cons, List.append_assoc, comparable_cons c cs]
    by_cases hnul : c = '\x00'
    · subst hnul
      rfl
    · rw [if_neg hnul, escaped_cons, isWild_standIn, List.append_assoc]
      have hmem : '\x00' ∈ c :: cs ↔ '\x00' ∈ cs := by simp [Ne.symm hnul]
      simp only [hmem, ← ih]
      by_cases hwild : isWild c
      · simp [hwild, comparable_cons, hnul, standIn_eq_self (c := '\\') rfl]
      · simp [hwild, comparable_cons, hnul]

/-- What is no letter has no case. -/
theorem mem_lowerCase_of_not_isAlpha {c : Char} {cs : List Char} (h : c.isAlpha = false) :
    c ∈ lowerCase cs ↔ c ∈ cs := by
  rw [Char.isAlpha, Bool.or_eq_false_iff] at h
  rw [lowerCase, List.mem_map]
  constructor
  · rintro ⟨d, hd, rfl⟩
    by_cases hupper : d.isUpper
    · exact absurd (isLower_toLower hupper) (by simp [h.2])
    · rwa [Char.toLower_eq_of_not_isUpper hupper]
  · exact fun hc => ⟨c, hc, Char.toLower_eq_of_not_isUpper (by simp [h.1])⟩

/-- A text whose characters are all compared as they stand. -/
def IsPlain (text : String) : Prop :=
  ∀ c ∈ text.toList, c ≠ '\x00' ∧ c ≠ '\x80' ∧ c ≠ '\ufffe' ∧ c ≠ '\uffff'

instance (text : String) : Decidable (IsPlain text) :=
  decidable_of_iff
    (text.toList.all fun c => c ≠ '\x00' ∧ c ≠ '\x80' ∧ c ≠ '\ufffe' ∧ c ≠ '\uffff')
    (by simp only [List.all_eq_true, decide_eq_true_eq, IsPlain])

theorem IsPlain.folded_eq {text : String} (h : IsPlain text) :
    folded text = lowerCase text.toList := by
  have hnot {c : Char} (hc : c.isAlpha = false) (hmem : c ∉ text.toList) :
      c ∉ lowerCase text.toList := by rwa [mem_lowerCase_of_not_isAlpha hc]
  have hnul := hnot (c := '\x00') (by decide) fun hmem => (h _ hmem).1 rfl
  have hfirst := hnot (c := '\ufffe') (by decide) fun hmem => (h _ hmem).2.2.1 rfl
  have hsecond := hnot (c := '\uffff') (by decide) fun hmem => (h _ hmem).2.2.2 rfl
  have hall : (lowerCase text.toList).takeWhile (· ≠ '\x00') = lowerCase text.toList :=
    List.takeWhile_eq_self_iff.2 fun c hc =>
      decide_eq_true fun hcnul => hnul (hcnul ▸ hc)
  rw [folded, comparable, hall]
  refine (List.map_congr_left fun c hc => ?_).trans (List.map_id _)
  rw [standIn, if_neg]
  · rfl
  · rintro (rfl | rfl)
    · exact hfirst hc
    · exact hsecond hc

namespace Sought

/-- What is left of a pattern when it is compared: its last wildcard comes after a NUL if the
    text holds one. -/
theorem comparable_pattern (text : String) :
    comparable (ofText text).pattern =
      '%' :: (escaped (folded text) ++ if '\x00' ∈ text.toList then [] else ['%']) := by
  have hpattern : (ofText text).pattern = '%' :: (escaped (lowerCase text.toList) ++ ['%']) := rfl
  rw [hpattern, comparable_cons, if_neg (by decide), comparable_escaped_append]
  simp only [mem_lowerCase_of_not_isAlpha (c := '\x00') (by decide)]
  rfl

/-- A text is in another if its characters stand side by side among those of the other. If it
    holds a NUL then what stands before that must end the other. -/
theorem isIn_ofText (sought text : String) :
    (ofText sought).isIn text = true ↔
      if '\x00' ∈ sought.toList then folded sought <:+ folded text
      else folded sought <:+: folded text := by
  rw [isIn, comparable_pattern, ← folded]
  split
  · rw [List.append_nil, like_any_escaped, lowerCase_folded, lowerCase_folded]
  · rw [like_any_escaped_any, lowerCase_folded, lowerCase_folded]

/-- A text is in another, as far as both are compared as they stand, if its characters stand
    side by side among those of the other, ASCII letters in either case. -/
theorem isIn_iff_of_isPlain {sought text : String} (hsought : IsPlain sought)
    (htext : IsPlain text) :
    (ofText sought).isIn text = true ↔ lowerCase sought.toList <:+: lowerCase text.toList := by
  have hnul : '\x00' ∉ sought.toList := fun hmem => (hsought _ hmem).1 rfl
  rw [isIn_ofText, if_neg hnul, hsought.folded_eq, htext.folded_eq]

/-- The bytes of a pattern are those of the text, of a backslash before each wildcard in it, and
    of the two wildcards around it. -/
theorem patternSize_ofText (text : String) :
    (ofText text).patternSize = text.utf8ByteSize + text.toList.countP isWild + 2 := by
  have hescaped (cs : List Char) :
      String.utf8Len (escaped (lowerCase cs)) = String.utf8Len cs + cs.countP isWild := by
    induction cs with
    | nil => rfl
    | cons c cs ih =>
      rw [lowerCase, List.map_cons, ← lowerCase, escaped_cons, String.utf8Len_append, ih,
        isWild_toLower, String.utf8Len_cons, List.countP_cons]
      have hbackslash : '\\'.utf8Size = 1 := rfl
      by_cases hwild : isWild c <;> simp [hwild, utf8Size_toLower, hbackslash] <;> omega
  have hpattern : (ofText text).pattern = '%' :: (escaped (lowerCase text.toList) ++ ['%']) := rfl
  have hpercent : '%'.utf8Size = 1 := rfl
  rw [patternSize, hpattern, String.utf8ByteSize_ofList, String.utf8Len_cons,
    String.utf8Len_append, hescaped, String.utf8Len_toList, String.utf8Len_cons,
    String.utf8Len_nil, hpercent]

end Sought

end Ripple.FullText
