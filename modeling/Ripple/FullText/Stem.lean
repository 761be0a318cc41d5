/-!
# Stems

`stem` takes the bytes of an English word to its stem by Porter's suffix rules, so
that `connected` and `connections` are found under `connect`. The rules see bytes:
one beyond ASCII is a consonant. Words of fewer than 3 or more than 64 bytes stay.

`measure` is the number of times that a vowel is followed by a consonant, on which
most of the rules depend.
-/

namespace Ripple.FullText

/-- A word as the bytes of its UTF-8 form. -/
abbrev Token := List UInt8

namespace Token

/-- The bytes of an ASCII word. -/
def ofAscii (word : String) : Token := word.toList.map fun c => c.toNat.toUInt8

/-- Whether a byte is one of `a`, `e`, `i`, `o` and `u`. -/
def isPlainVowel (b : UInt8) : Bool :=
  b == 97 || b == 101 || b == 105 || b == 111 || b == 117

/-- The letter `y`. -/
def letterY : UInt8 := 121

/-- Which letters of a word are consonants, after a letter that is or is not one. A
    `y` is one unless it follows one. -/
def consonants (afterConsonant : Bool) : Token → List Bool
  | [] => []
  | b :: rest =>
    let consonant := !(isPlainVowel b || (afterConsonant && b == letterY))
    consonant :: consonants consonant rest

/-- How often a vowel is followed by a consonant. -/
def vowelConsonantPairs : List Bool → Nat
  | false :: true :: rest => vowelConsonantPairs (true :: rest) + 1
  | _ :: rest => vowelConsonantPairs rest
  | [] => 0

/-- How often a vowel of the word is followed by a consonant. -/
def measure (word : Token) : Nat := vowelConsonantPairs (consonants false word)

/-- Whether the word contains a vowel, where a `y` is one anywhere but first. -/
def hasVowel : Token → Bool
  | [] => false
  | first :: rest => isPlainVowel first || rest.any fun b => isPlainVowel b || b == letterY

/-- Whether the word ends in a consonant, a vowel and a consonant other than `w`, `x`
    and `y`. -/
def endsShort (word : Token) : Bool :=
  match word.reverse with
  | [] => false
  | last :: _ =>
    last != 119 && last != 120 && last != letterY &&
      (consonants false word).reverse.take 3 == [true, false, true]

/-- The word without an ending, if there is anything before it. -/
def without? (word ending : Token) : Option Token :=
  let kept := word.length - ending.length
  if 0 < kept ∧ word.drop kept = ending then some (word.take kept) else none

/-- A rule: a word that ends in `ending` has it replaced, on a condition on what stands
    before it. -/
structure Rule where
  /-- The ending. -/
  ending : String
  /-- What replaces it. -/
  replacement : String
  /-- The condition on what stands before it. -/
  applies : Token → Bool

/-- Applies the first rule whose ending the word has; its condition decides whether
    anything changes. -/
def applyFirst (rules : List Rule) (word : Token) : Token :=
  match rules with
  | [] => word
  | rule :: rest =>
    match word.without? (ofAscii rule.ending) with
    | some before => if rule.applies before then before ++ ofAscii rule.replacement else word
    | none => applyFirst rest word

/-- Plurals: `ies` and `sses` lose `es`, any other `s` goes unless it follows an `s`. -/
def dropPlural (word : Token) : Token :=
  match word.reverse with
  | 115 :: 101 :: rest =>
    match rest with
    | 115 :: 115 :: _ :: _ => rest.reverse
    | 105 :: _ :: _ => rest.reverse
    | _ => (101 :: rest).reverse
  | 115 :: b :: rest => if b == 115 then word else (b :: rest).reverse
  | _ => word

/-- After a past or a participle is taken off: `at`, `bl` and `iz` get an `e` back, a
    double consonant is single, a short word gets an `e`. -/
def mendEnding (word : Token) : Token :=
  if (word.without? (ofAscii "at")).isSome || (word.without? (ofAscii "bl")).isSome ||
      (word.without? (ofAscii "iz")).isSome then word ++ ofAscii "e"
  else
    let doubled := match word.reverse with
      | a :: b :: _ => a == b && !isPlainVowel a && a != 108 && a != 115 && a != 122
      | _ => false
    if doubled then word.dropLast
    else if measure word == 1 && endsShort word then word ++ ofAscii "e"
    else word

/-- Pasts and participles: `eed`, `ed` and `ing`. -/
def dropParticiple (word : Token) : Token :=
  match word.without? (ofAscii "eed") with
  | some before => if measure before > 0 then before ++ ofAscii "ee" else word
  | none =>
    match (word.without? (ofAscii "ed")).or (word.without? (ofAscii "ing")) with
    | some before => if hasVowel before then mendEnding before else word
    | none => word

/-- A final `y` after a vowel somewhere becomes an `i`. -/
def softenY (word : Token) : Token :=
  match word.reverse with
  | last :: before => if last == letterY && hasVowel before.reverse then
      (105 :: before).reverse else word
  | [] => word

/-- Whether the measure is at least one. -/
def long (before : Token) : Bool := measure before > 0

/-- Whether the measure is at least two. -/
def longer (before : Token) : Bool := measure before > 1

/-- Double suffixes, by the last letter but one. -/
def doubleSuffixes : List Rule := [
  ⟨"ational", "ate", long⟩, ⟨"tional", "tion", long⟩, ⟨"enci", "ence", long⟩,
  ⟨"anci", "ance", long⟩, ⟨"izer", "ize", long⟩, ⟨"logi", "log", long⟩,
  ⟨"bli", "ble", long⟩, ⟨"alli", "al", long⟩, ⟨"entli", "ent", long⟩, ⟨"eli", "e", long⟩,
  ⟨"ousli", "ous", long⟩, ⟨"ization", "ize", long⟩, ⟨"ation", "ate", long⟩,
  ⟨"ator", "ate", long⟩, ⟨"alism", "al", long⟩, ⟨"iveness", "ive", long⟩,
  ⟨"fulness", "ful", long⟩, ⟨"ousness", "ous", long⟩, ⟨"aliti", "al", long⟩,
  ⟨"iviti", "ive", long⟩, ⟨"biliti", "ble", long⟩]

/-- Single suffixes that are shortened or dropped. -/
def singleSuffixes : List Rule := [
  ⟨"ical", "ic", long⟩, ⟨"ness", "", long⟩, ⟨"icate", "ic", long⟩, ⟨"iciti", "ic", long⟩,
  ⟨"ful", "", long⟩, ⟨"ative", "", long⟩, ⟨"alize", "al", long⟩]

/-- Suffixes that go from longer words. `ion` goes after an `s` or a `t` only. -/
def lastSuffixes : List Rule := [
  ⟨"al", "", longer⟩, ⟨"ance", "", longer⟩, ⟨"ence", "", longer⟩, ⟨"er", "", longer⟩,
  ⟨"ic", "", longer⟩, ⟨"able", "", longer⟩, ⟨"ible", "", longer⟩, ⟨"ant", "", longer⟩,
  ⟨"ement", "", longer⟩, ⟨"ment", "", longer⟩, ⟨"ent", "", longer⟩,
  ⟨"ion", "", fun before =>
    longer before && (before.getLast? == some 115 || before.getLast? == some 116)⟩,
  ⟨"ou", "", longer⟩, ⟨"ism", "", longer⟩, ⟨"ate", "", longer⟩, ⟨"iti", "", longer⟩,
  ⟨"ous", "", longer⟩, ⟨"ive", "", longer⟩, ⟨"ize", "", longer⟩]

/-- A final `e` goes from a longer word, and from one that is not short without it. -/
def dropE (word : Token) : Token :=
  match word.reverse with
  | 101 :: before =>
    let before := before.reverse
    if longer before || (measure before == 1 && !endsShort before) then before else word
  | _ => word

/-- A final double `l` is single in a longer word. -/
def singleL (word : Token) : Token :=
  match word.reverse with
  | 108 :: 108 :: rest => if longer (108 :: rest).reverse then (108 :: rest).reverse else word
  | _ => word

/-- The stem of a word. -/
def stem (word : Token) : Token :=
  if word.length < 3 || word.length > 64 then word
  else
    let word := softenY (dropParticiple (dropPlural word))
    let word := applyFirst lastSuffixes (applyFirst singleSuffixes (applyFirst doubleSuffixes word))
    singleL (dropE word)

end Token

end Ripple.FullText
