import Ripple.Toml.Quoted
import Mathlib.Data.Char
import Mathlib.Data.List.Basic
import Mathlib.Tactic.IntervalCases

/-!
# Reading strings of TOML back

A character between quotes is read from its written form as it was (`basic_escape`,
`longBasic_escape`). Where three marks end a string, those of its own that stand before them are
read as its own (`closing_replicate`). So a string of any form is read as it was, whichever form
it is written in (`read_write`).
-/

namespace Ripple.Toml.Quoted

variable {seen rest cs : List Char} {c mark : Char}

/-! ## Characters -/

theorem hexValue?_hexDigit : ∀ n < 16, hexValue? (hexDigit n) = some n := by
  decide

/-- A character that is no control and no line break can stand anywhere in a line. -/
theorem isPlain_of_not_isControl (h : isControl c = false) (hbreak : c ≠ '\n') : isPlain c := by
  simp only [isControl, Bool.or_eq_false_iff, Bool.and_eq_false_iff, decide_eq_false_iff_not,
    not_not, not_lt] at h
  simp only [isPlain, Bool.or_eq_true, Bool.and_eq_true, decide_eq_true_eq]
  obtain ⟨(hlow | rfl) | rfl, hdelete⟩ := h
  · exact .inr ⟨hlow, hdelete⟩
  · exact .inl rfl
  · exact absurd rfl hbreak

/-- A control is read from its code. -/
theorem hexCharacter?_hexDigit (h : isControl c) :
    hexCharacter? ['0', '0', hexDigit (c.toNat / 16), hexDigit (c.toNat % 16)] = some c := by
  have hlt : c.toNat < 128 := by
    simp only [isControl, Bool.or_eq_true, Bool.and_eq_true, decide_eq_true_eq] at h
    rcases h with ⟨⟨hlt, -⟩, -⟩ | rfl
    · have : c.toNat < ' '.toNat := hlt
      exact Nat.lt_of_lt_of_le this (by decide)
    · decide
  have hzero : hexValue? '0' = some 0 := rfl
  have hcode : ((0 * 16 + 0) * 16 + 0) * 16 + c.toNat / 16 = c.toNat / 16 := by omega
  have hvalid : c.toNat.isValidChar := c.valid
  simp only [hexCharacter?, List.foldlM_cons, List.foldlM_nil, hzero,
    hexValue?_hexDigit (c.toNat / 16) (by omega), hexValue?_hexDigit (c.toNat % 16) (by omega),
    Option.map_some, Option.bind_eq_bind, Option.bind_some, Option.pure_def, Nat.zero_mul,
    Nat.zero_add, Nat.div_add_mod', hvalid, if_true, Char.ofNat_toNat]

/-! ## Between quotes -/

theorem basic_letter {e d : Char} (hu : e ≠ 'u') (hU : e ≠ 'U') (h : unescape? e = some d) :
    basic seen ('\\' :: e :: rest) = basic (d :: seen) rest := by
  rw [basic.eq_def]
  simp [hu, hU, h]

theorem basic_code {a b d e x : Char} (h : hexCharacter? [a, b, d, e] = some x) :
    basic seen ('\\' :: 'u' :: a :: b :: d :: e :: rest) = basic (x :: seen) rest := by
  rw [basic.eq_def]
  simp [h]

theorem basic_plain (hquote : c ≠ '"') (hslash : c ≠ '\\') (h : isPlain c) :
    basic seen (c :: rest) = basic (c :: seen) rest := by
  rw [basic.eq_def]
  simp [hquote, hslash, h]

/-- A character other than a quote or a line break is read from its written form. -/
theorem basic_escape (hquote : c ≠ '"') (hbreak : c ≠ '\n') :
    basic seen (escape c ++ rest) = basic (c :: seen) rest := by
  by_cases hletter : c = '\\' ∨ c = '\x08' ∨ c = '\t' ∨ c = '\x0c' ∨ c = '\r'
  · rcases hletter with rfl | rfl | rfl | rfl | rfl <;>
      exact basic_letter (by decide) (by decide) (by decide)
  · simp only [not_or] at hletter
    obtain ⟨hslash, hletters⟩ := hletter
    simp only [escape, hslash, hletters, if_false]
    split
    · exact basic_code (hexCharacter?_hexDigit ‹_›)
    · exact basic_plain hquote hslash (isPlain_of_not_isControl (eq_false_of_ne_true ‹_›) hbreak)

/-- A string between quotes is read up to its last quote. -/
theorem basic_basicBody (seen cs rest : List Char) :
    basic seen (basicBody cs ++ '"' :: rest) = some (seen.reverse ++ cs, rest) := by
  induction cs generalizing seen with
  | nil =>
    rw [basicBody, List.nil_append, basic.eq_def]
    simp
  | cons c cs ih =>
    have hread : basic seen (basicBody (c :: cs) ++ '"' :: rest) =
        basic (c :: seen) (basicBody cs ++ '"' :: rest) := by
      rw [basicBody]
      by_cases hquote : c = '"'
      · rw [if_pos hquote, hquote]
        exact basic_letter (by decide) (by decide) (by decide)
      rw [if_neg hquote]
      by_cases hbreak : c = '\n'
      · rw [if_pos hbreak, hbreak]
        exact basic_letter (by decide) (by decide) (by decide)
      rw [if_neg hbreak, List.append_assoc]
      exact basic_escape hquote hbreak
    rw [hread, ih, List.reverse_cons, List.append_assoc]
    rfl

/-! ## Between apostrophes -/

theorem literal_append (seen rest : List Char) (h : ∀ c ∈ cs, c ≠ '\'' ∧ isPlain c) :
    literal seen (cs ++ '\'' :: rest) = some (seen.reverse ++ cs, rest) := by
  induction cs generalizing seen with
  | nil => simp [literal]
  | cons c cs ih =>
    rw [List.forall_mem_cons] at h
    obtain ⟨⟨hmark, hplain⟩, hrest⟩ := h
    rw [List.cons_append, literal, if_neg hmark, if_pos hplain, ih _ hrest, List.reverse_cons,
      List.append_assoc]
    rfl

/-! ## Between three marks -/

theorem le_longestRow (mark : Char) (row : ℕ) (cs : List Char) : row ≤ longestRow mark row cs := by
  induction cs generalizing row with
  | nil => exact le_rfl
  | cons c cs ih =>
    rw [longestRow]
    split
    · exact Nat.le_of_succ_le (ih (row + 1))
    · exact le_max_left _ _

/-- Up to two marks before the three that end a string belong to it. -/
theorem closing_replicate {k : ℕ} (hk : k ≤ 2) (hrest : ∀ c ∈ rest.head?, c ≠ mark) :
    closing mark seen (List.replicate k mark ++ rest) =
      (seen.reverse ++ List.replicate k mark, rest) := by
  have hnone : closing mark seen rest = (seen.reverse, rest) := by
    rw [closing.eq_def]
    rcases rest with _ | ⟨a, _ | ⟨b, more⟩⟩
    · rfl
    · simp [hrest a rfl]
    · simp [hrest a rfl]
  have hone : closing mark seen (mark :: rest) = ((mark :: seen).reverse, rest) := by
    rw [closing.eq_def]
    rcases rest with _ | ⟨a, more⟩
    · simp
    · simp [hrest a rfl]
  have htwo : closing mark seen (mark :: mark :: rest) =
      ((mark :: mark :: seen).reverse, rest) := by
    rw [closing.eq_def]
    simp
  interval_cases k
  · simpa using hnone
  · simpa using hone
  · simpa using htwo

theorem twoMarks_eq_false (h : ∀ d ∈ cs.head?, d ≠ mark) : twoMarks mark cs = false := by
  rcases cs with _ | ⟨d, _ | ⟨e, cs⟩⟩
  · rfl
  · rfl
  · simp [twoMarks, h d rfl]

theorem twoMarks_cons_eq_false (h : ∀ d ∈ cs.head?, d ≠ mark) :
    twoMarks mark (c :: cs) = false := by
  rcases cs with _ | ⟨d, cs⟩
  · rfl
  · simp [twoMarks, h d rfl]

/-- The first mark that is read as the end of a string may be one of the string. Then at most one
    more of the string comes before the three that end it. -/
theorem closing_drop {k : ℕ} (hk : k ≤ 1) (hrest : ∀ c ∈ rest.head?, c ≠ mark) :
    closing mark seen ((List.replicate k mark ++ mark :: mark :: mark :: rest).drop 2) =
      (seen.reverse ++ mark :: List.replicate k mark, rest) := by
  have hdrop : (List.replicate k mark ++ mark :: mark :: mark :: rest).drop 2 =
      List.replicate (k + 1) mark ++ rest := by
    interval_cases k <;> rfl
  rw [hdrop, closing_replicate (by omega) hrest]
  rfl

/-! ### Apostrophes -/

theorem longLiteral_plain (hmark : c ≠ '\'') (hcontrol : isControl c = false) :
    longLiteral seen (c :: rest) = longLiteral (c :: seen) rest := by
  by_cases hbreak : c = '\n'
  · rw [hbreak, longLiteral.eq_def]
    simp
  · have hreturn : c ≠ '\r' := by
      rintro rfl
      exact absurd hcontrol (by decide)
    have hplain := isPlain_of_not_isControl hcontrol hbreak
    rw [longLiteral.eq_def]
    simp [hbreak, hreturn, hmark, hplain]

/-- Two marks after one of a string with at most two in a row are the end of the string, but for
    one at most. -/
theorem exists_replicate_of_twoMarks {row : ℕ} (hrow : longestRow mark (row + 1) cs ≤ 2)
    (h : twoMarks mark (cs ++ mark :: mark :: mark :: rest)) :
    ∃ k ≤ 1, cs = List.replicate k mark := by
  rcases cs with _ | ⟨d, _ | ⟨e, cs⟩⟩
  · exact ⟨0, by omega, rfl⟩
  · simp only [List.cons_append, List.nil_append, twoMarks, Bool.and_eq_true,
      decide_eq_true_eq] at h
    exact ⟨1, le_rfl, by rw [h.1]; rfl⟩
  · simp only [List.cons_append, twoMarks, Bool.and_eq_true, decide_eq_true_eq] at h
    rw [longestRow, if_pos h.1, longestRow, if_pos h.2] at hrow
    have := le_longestRow mark (row + 1 + 1 + 1) cs
    omega

theorem longLiteral_append (hcontrol : ∀ c ∈ cs, isControl c = false) {row : ℕ}
    (hrow : longestRow '\'' row cs ≤ 2) (hrest : ∀ c ∈ rest.head?, c ≠ '\'')
    (seen : List Char) : longLiteral seen (cs ++ '\'' :: '\'' :: '\'' :: rest) =
      some (seen.reverse ++ cs, rest) := by
  induction cs generalizing row seen with
  | nil =>
    rw [List.nil_append, longLiteral.eq_def]
    simpa [twoMarks] using closing_replicate (Nat.zero_le 2) hrest
  | cons c cs ih =>
    rw [List.forall_mem_cons] at hcontrol
    rw [longestRow] at hrow
    have hnext {row : ℕ} (hrow : longestRow '\'' row cs ≤ 2) :
        longLiteral (c :: seen) (cs ++ '\'' :: '\'' :: '\'' :: rest) =
          some (seen.reverse ++ c :: cs, rest) := by
      rw [ih hcontrol.2 hrow, List.reverse_cons, List.append_assoc]
      rfl
    by_cases hmark : c = '\''
    · rw [if_pos hmark] at hrow
      rw [List.cons_append, hmark, longLiteral.eq_def]
      cases hmarks : twoMarks '\'' (cs ++ '\'' :: '\'' :: '\'' :: rest) with
      | true =>
        obtain ⟨k, hk, rfl⟩ := exists_replicate_of_twoMarks hrow hmarks
        simpa [hmarks] using closing_drop hk hrest
      | false => simpa [hmarks, hmark] using hnext hrow
    · rw [if_neg hmark] at hrow
      rw [List.cons_append, longLiteral_plain hmark hcontrol.1]
      exact hnext (le_of_max_le_right hrow)

/-! ### Quotes -/

/-- A letter after a backslash, or another backslash or a quote, does not end a line. -/
theorem endsLine_of_unescape? {e d : Char} (h : unescape? e = some d) (rest : List Char) :
    endsLine (e :: rest) = false := by
  have hblank : isBlank e = false := by
    simp only [isBlank, Bool.or_eq_false_iff, decide_eq_false_iff_not]
    constructor <;> rintro rfl <;> simp [unescape?] at h
  have hfeed : e ≠ '\n' := by
    rintro rfl
    simp [unescape?] at h
  have hreturn : e ≠ '\r' := by
    rintro rfl
    simp [unescape?] at h
  rw [endsLine, skipBlanks, List.dropWhile_cons_of_neg (by simp [hblank]), newline?.eq_def]
  simp [hfeed, hreturn]

theorem longBasic_letter {e d : Char} (hu : e ≠ 'u') (hU : e ≠ 'U') (h : unescape? e = some d) :
    longBasic false seen ('\\' :: e :: rest) = longBasic false (d :: seen) rest := by
  rw [longBasic.eq_def]
  simp [hu, hU, h, endsLine_of_unescape? h]

theorem longBasic_code {a b d e x : Char} (h : hexCharacter? [a, b, d, e] = some x) :
    longBasic false seen ('\\' :: 'u' :: a :: b :: d :: e :: rest) =
      longBasic false (x :: seen) rest := by
  have hends : endsLine ('u' :: a :: b :: d :: e :: rest) = false := rfl
  rw [longBasic.eq_def]
  simp [h, hends]

theorem longBasic_plain (hquote : c ≠ '"') (hslash : c ≠ '\\') (hbreak : c ≠ '\n')
    (hreturn : c ≠ '\r') (h : isPlain c) :
    longBasic false seen (c :: rest) = longBasic false (c :: seen) rest := by
  rw [longBasic.eq_def]
  simp [hquote, hslash, hbreak, hreturn, h]

theorem longBasic_break : longBasic false seen ('\n' :: rest) =
    longBasic false ('\n' :: seen) rest := by
  rw [longBasic.eq_def]
  simp

/-- A character other than a quote or a line break is read from its written form. -/
theorem longBasic_escape (hquote : c ≠ '"') (hbreak : c ≠ '\n') :
    longBasic false seen (escape c ++ rest) = longBasic false (c :: seen) rest := by
  by_cases hletter : c = '\\' ∨ c = '\x08' ∨ c = '\t' ∨ c = '\x0c' ∨ c = '\r'
  · rcases hletter with rfl | rfl | rfl | rfl | rfl <;>
      exact longBasic_letter (by decide) (by decide) (by decide)
  · simp only [not_or] at hletter
    obtain ⟨hslash, hletters⟩ := hletter
    simp only [escape, hslash, hletters, if_false]
    split
    · exact longBasic_code (hexCharacter?_hexDigit ‹_›)
    · exact longBasic_plain hquote hslash hbreak hletters.2.2.2
        (isPlain_of_not_isControl (eq_false_of_ne_true ‹_›) hbreak)

/-- The written form of a character begins with a backslash or is the character. -/
theorem exists_escape_eq (c : Char) :
    ∃ d more, escape c = d :: more ∧ (d = '\\' ∨ d = c ∧ c ≠ '\r') := by
  unfold escape
  split_ifs <;> exact ⟨_, _, rfl, by simp [*]⟩

/-- After two quotes no third one is written, and only a quote is written as one. -/
theorem exists_longBasicBody_eq {row : ℕ} (h : 2 ≤ row ∨ c ≠ '"') (cs : List Char) :
    ∃ d more, longBasicBody row (c :: cs) = d :: more ∧ d ≠ '"' := by
  rw [longBasicBody]
  by_cases hquote : c = '"'
  · rw [if_pos hquote, if_neg (Nat.not_lt.2 (h.resolve_right (not_not.2 hquote)))]
    exact ⟨'\\', _, rfl, by decide⟩
  · rw [if_neg hquote]
    split
    · exact ⟨'\n', _, rfl, by decide⟩
    · obtain ⟨d, more, hescape, hd⟩ := exists_escape_eq c
      rw [hescape]
      refine ⟨d, _, rfl, ?_⟩
      rcases hd with rfl | ⟨rfl, -⟩
      · decide
      · exact hquote

/-- Two quotes after a written one are the end of the string, but for one at most. -/
theorem exists_replicate_of_twoMarks_longBasicBody {row : ℕ}
    (h : twoMarks '"' (longBasicBody (row + 1) cs ++ '"' :: '"' :: '"' :: rest)) :
    ∃ k ≤ 1, cs = List.replicate k '"' ∧ longBasicBody (row + 1) cs = List.replicate k '"' := by
  rcases cs with _ | ⟨d, cs⟩
  · exact ⟨0, by omega, rfl, rfl⟩
  by_cases hd : 2 ≤ row + 1 ∨ d ≠ '"'
  · obtain ⟨e, more, hbody, he⟩ := exists_longBasicBody_eq hd cs
    rw [hbody] at h
    cases more <;> simp [twoMarks, he] at h
  · obtain ⟨hrow, rfl⟩ : row = 0 ∧ d = '"' := by
      rw [not_or, not_not] at hd
      exact ⟨by omega, hd.2⟩
    subst hrow
    rcases cs with _ | ⟨e, cs⟩
    · exact ⟨1, le_rfl, rfl, rfl⟩
    · obtain ⟨f, more, hbody, hf⟩ := exists_longBasicBody_eq (c := e) (.inl le_rfl) cs
      have hfirst : longBasicBody 1 ('"' :: e :: cs) = '"' :: longBasicBody 2 (e :: cs) := rfl
      rw [Nat.zero_add, hfirst, hbody] at h
      simp [twoMarks, hf] at h

theorem longBasic_longBasicBody (row : ℕ) (hrest : ∀ c ∈ rest.head?, c ≠ '"') (seen : List Char) :
    longBasic false seen (longBasicBody row cs ++ '"' :: '"' :: '"' :: rest) =
      some (seen.reverse ++ cs, rest) := by
  induction cs generalizing row seen with
  | nil =>
    rw [longBasicBody, List.nil_append, longBasic.eq_def]
    simpa [twoMarks] using closing_replicate (Nat.zero_le 2) hrest
  | cons c cs ih =>
    have hnext (row : ℕ) :
        longBasic false (c :: seen) (longBasicBody row cs ++ '"' :: '"' :: '"' :: rest) =
          some (seen.reverse ++ c :: cs, rest) := by
      rw [ih row, List.reverse_cons, List.append_assoc]
      rfl
    rw [longBasicBody]
    by_cases hquote : c = '"'
    · rw [if_pos hquote]
      subst hquote
      split
      · rw [List.cons_append, longBasic.eq_def]
        cases hmarks : twoMarks '"' (longBasicBody (row + 1) cs ++ '"' :: '"' :: '"' :: rest) with
        | true =>
          obtain ⟨k, hk, rfl, hbody⟩ := exists_replicate_of_twoMarks_longBasicBody hmarks
          rw [hbody] at hmarks ⊢
          simpa [hmarks] using closing_drop hk hrest
        | false => simpa [hmarks] using hnext (row + 1)
      · exact (longBasic_letter (by decide) (by decide) (by decide)).trans (hnext 0)
    · rw [if_neg hquote]
      split
      · subst c
        exact longBasic_break.trans (hnext 0)
      · rw [List.append_assoc, longBasic_escape hquote ‹_›]
        exact hnext 0

/-! ## Any form -/

theorem not_mem_of_longestRow_eq_zero (h : longestRow mark 0 cs = 0) : mark ∉ cs := by
  induction cs with
  | nil => exact List.not_mem_nil
  | cons c cs ih =>
    rw [longestRow] at h
    split at h
    · have := le_longestRow mark (0 + 1) cs
      omega
    · rename_i hne
      rw [List.mem_cons, not_or]
      exact ⟨Ne.symm hne, ih (by omega)⟩

/-- Between apostrophes stands only what needs no escape. -/
theorem form_eq_literal (h : form cs = .literal) : ∀ c ∈ cs, c ≠ '\'' ∧ isPlain c := by
  have hform : cs.any isControl = false ∧ cs.contains '\n' = false ∧
      longestRow '\'' 0 cs = 0 := by
    simp only [form] at h
    split_ifs at h with hbasic hliteral
    simpa [and_assoc] using hliteral
  obtain ⟨hcontrol, hbreak, hrow⟩ := hform
  intro c hc
  rw [List.any_eq_false] at hcontrol
  refine ⟨?_, isPlain_of_not_isControl (eq_false_of_ne_true (hcontrol c hc)) ?_⟩
  · rintro rfl
    exact not_mem_of_longestRow_eq_zero hrow hc
  · rintro rfl
    simp [hc] at hbreak

theorem form_eq_longLiteral (h : form cs = .longLiteral) :
    (∀ c ∈ cs, isControl c = false) ∧ longestRow '\'' 0 cs ≤ 2 := by
  have hform : cs.any isControl = false ∧ longestRow '\'' 0 cs ≤ 2 := by
    simp only [form] at h
    split_ifs at h with hbasic hliteral hlongBasic hlongLiteral
    simpa using hlongLiteral
  rw [List.any_eq_false] at hform
  exact ⟨fun c hc => eq_false_of_ne_true (hform.1 c hc), hform.2⟩

/-- The line break at the beginning of a string does not count, and it stands there if the string
    could begin with one. -/
theorem skipNewline_leadingBreak {body : List Char}
    (h : '\n' ∉ cs → ∀ c ∈ body.head?, c ≠ '\n' ∧ c ≠ '\r') :
    skipNewline (leadingBreak cs ++ body) = body := by
  rw [leadingBreak]
  split
  · rfl
  · rename_i hbreak
    rcases body with _ | ⟨c, body⟩
    · rfl
    · obtain ⟨hfeed, hreturn⟩ := h (by simpa using hbreak) c rfl
      rw [List.nil_append, skipNewline, newline?.eq_def]
      simp [hfeed, hreturn]

theorem twoMarks_basicBody (hrest : ∀ c ∈ rest.head?, c ≠ '"') :
    twoMarks '"' (basicBody cs ++ '"' :: rest) = false := by
  rcases cs with _ | ⟨c, cs⟩
  · exact twoMarks_cons_eq_false hrest
  · refine twoMarks_eq_false fun d hd => ?_
    rw [basicBody] at hd
    by_cases hquote : c = '"'
    · rw [if_pos hquote] at hd
      obtain rfl := Option.some.inj hd
      decide
    rw [if_neg hquote] at hd
    split at hd
    · obtain rfl := Option.some.inj hd
      decide
    · obtain ⟨e, more, hescape, he⟩ := exists_escape_eq c
      rw [hescape] at hd
      obtain rfl := Option.some.inj hd
      rcases he with rfl | ⟨rfl, -⟩
      · decide
      · exact hquote

/-- A string without line breaks does not begin with one between three quotes. -/
theorem head?_longBasicBody (hbreak : '\n' ∉ cs) :
    ∀ c ∈ (longBasicBody 0 cs ++ '"' :: rest).head?, c ≠ '\n' ∧ c ≠ '\r' := by
  intro d hd
  rcases cs with _ | ⟨c, cs⟩
  · obtain rfl := Option.some.inj hd
    decide
  rw [List.mem_cons, not_or] at hbreak
  rw [longBasicBody] at hd
  by_cases hquote : c = '"'
  · rw [if_pos hquote, if_pos (by decide)] at hd
    obtain rfl := Option.some.inj hd
    decide
  rw [if_neg hquote, if_neg (Ne.symm hbreak.1)] at hd
  obtain ⟨e, more, hescape, he⟩ := exists_escape_eq c
  rw [hescape] at hd
  obtain rfl := Option.some.inj hd
  rcases he with rfl | ⟨rfl, hreturn⟩
  · decide
  · exact ⟨Ne.symm hbreak.1, hreturn⟩

/-- A string is read as it was written if no quote or apostrophe follows it. -/
theorem read_write (cs : List Char) (hrest : ∀ c ∈ rest.head?, c ≠ '"' ∧ c ≠ '\'') :
    read (write cs ++ rest) = some (cs, rest) := by
  have hquote : ∀ c ∈ rest.head?, c ≠ '"' := fun c hc => (hrest c hc).1
  have hmark : ∀ c ∈ rest.head?, c ≠ '\'' := fun c hc => (hrest c hc).2
  cases hform : form cs with
  | basic =>
    simp only [write, hform, List.cons_append, List.append_assoc, List.nil_append, read,
      twoMarks_basicBody hquote]
    exact basic_basicBody [] cs rest
  | literal =>
    have hplain := form_eq_literal hform
    have hmarks : twoMarks '\'' (cs ++ '\'' :: rest) = false := by
      rcases cs with _ | ⟨c, cs⟩
      · exact twoMarks_cons_eq_false hmark
      · refine twoMarks_eq_false fun d hd => ?_
        obtain rfl := Option.some.inj hd
        exact (hplain c List.mem_cons_self).1
    simp only [write, hform, List.cons_append, List.append_assoc, List.nil_append, read, hmarks]
    exact literal_append [] rest hplain
  | longBasic =>
    have hmarks (cs : List Char) : twoMarks '"' ('"' :: '"' :: cs) = true := rfl
    simp only [write, hform, List.cons_append, List.append_assoc, List.nil_append, read, hmarks,
      if_true, List.drop_succ_cons, List.drop_zero]
    rw [skipNewline_leadingBreak fun hbreak => head?_longBasicBody hbreak]
    exact longBasic_longBasicBody 0 hquote []
  | longLiteral =>
    obtain ⟨hcontrol, hrow⟩ := form_eq_longLiteral hform
    have hmarks (cs : List Char) : twoMarks '\'' ('\'' :: '\'' :: cs) = true := rfl
    simp only [write, hform, List.cons_append, List.append_assoc, List.nil_append, read, hmarks,
      if_true, List.drop_succ_cons, List.drop_zero]
    rw [skipNewline_leadingBreak fun hbreak c hc => ?_]
    · exact longLiteral_append hcontrol hrow hmark []
    · rcases cs with _ | ⟨d, cs⟩
      · obtain rfl := Option.some.inj hc
        decide
      · obtain rfl := Option.some.inj hc
        rw [List.mem_cons, not_or] at hbreak
        refine ⟨Ne.symm hbreak.1, ?_⟩
        rintro rfl
        exact absurd (hcontrol _ List.mem_cons_self) (by decide)

end Ripple.Toml.Quoted
