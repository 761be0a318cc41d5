import Ripple.Json.Draft
import Ripple.Json.Printer
import Mathlib.Data.Nat.Notation

/-!
# Reading strings back

Every character is read from its written form as it was (`stringBody_escape`), and so is
every string between its quotes (`stringBody_quoted`).
-/

namespace Ripple.Json

variable (seen rest : List Char)

theorem stringBody_close :
    stringBody seen none none ('"' :: rest) = .ok (.ok (String.ofList seen.reverse), rest) := by
  rw [stringBody.eq_def]
  simp [unpaired]

theorem stringBody_letter {e d : Char} (hu : e ≠ 'u') (h : unescape? e = some d) :
    stringBody seen none none ('\\' :: e :: rest) = stringBody (d :: seen) none none rest := by
  rw [stringBody.eq_def]
  simp [hu, h, unpaired]

theorem stringBody_unit {a b c d : Char} {unit : ℕ} (h : hexUnit? a b c d = some unit)
    (hlow : unit < 0xD800) : stringBody seen none none ('\\' :: 'u' :: a :: b :: c :: d :: rest) =
      stringBody (Char.ofNat unit :: seen) none none rest := by
  have hleading : isLeadingSurrogate unit = false := by
    simp only [isLeadingSurrogate, Bool.and_eq_false_iff, decide_eq_false_iff_not]
    omega
  have htrailing : isTrailingSurrogate unit = false := by
    simp only [isTrailingSurrogate, Bool.and_eq_false_iff, decide_eq_false_iff_not]
    omega
  rw [stringBody.eq_def]
  simp [h, hleading, htrailing]

theorem stringBody_plain {c : Char} (hquote : c ≠ '"') (hslash : c ≠ '\\') (h : ¬c.toNat < 32) :
    stringBody seen none none (c :: rest) = stringBody (c :: seen) none none rest := by
  rw [stringBody.eq_def]
  simp [hquote, hslash, h, unpaired]

theorem hexValue?_hexDigit : ∀ n < 16, hexValue? (hexDigit n) = some n := by
  decide

/-- A character is read from its written form. -/
theorem stringBody_escape (c : Char) :
    stringBody seen none none (escape c ++ rest) = stringBody (c :: seen) none none rest := by
  by_cases hletter : c = '"' ∨ c = '\\' ∨ c = '\x08' ∨ c = '\x0c' ∨ c = '\n' ∨ c = '\r' ∨ c = '\t'
  · rcases hletter with rfl | rfl | rfl | rfl | rfl | rfl | rfl <;>
      exact stringBody_letter _ _ (by decide) (by decide)
  · simp only [not_or] at hletter
    obtain ⟨hquote, hslash, hletters⟩ := hletter
    simp only [escape, hquote, hslash, hletters, if_false]
    split
    · have hzero : hexValue? '0' = some 0 := rfl
      have hunit : hexUnit? '0' '0' (hexDigit (c.toNat / 16)) (hexDigit (c.toNat % 16)) =
          some c.toNat := by
        simp only [hexUnit?, hzero, hexValue?_hexDigit (c.toNat / 16) (by omega),
          hexValue?_hexDigit (c.toNat % 16) (by omega), Option.bind_eq_bind, Option.bind_some,
          Option.pure_def, Option.some.injEq]
        omega
      have hread := stringBody_unit seen rest hunit (by omega)
      rwa [Char.ofNat_toNat] at hread
    · exact stringBody_plain seen rest hquote hslash ‹_›

/-- A string is read from its quoted form, after its opening quote. -/
theorem stringBody_quoted (s : String) :
    stringBody [] none none (s.toList.flatMap escape ++ '"' :: rest) = .ok (.ok s, rest) := by
  have hbody : ∀ cs seen : List Char, stringBody seen none none (cs.flatMap escape ++ '"' :: rest) =
      .ok (.ok (String.ofList (seen.reverse ++ cs)), rest) := by
    intro cs
    induction cs with
    | nil => simp [stringBody_close]
    | cons c cs ih =>
      intro seen
      rw [List.flatMap_cons, List.append_assoc, stringBody_escape, ih]
      simp
  simpa using hbody s.toList []

end Ripple.Json
