import Ripple.FullText.Letter
import Ripple.FullText.CaseFolding
import Ripple.FullText.Diacritic
import Ripple.FullText.Stem

/-!
# Tokens of a text

A token is a longest run of letters; combining marks within it do not end it and are
dropped. Its letters are folded to one case and lose their diacritic, and the word is
cut to its stem. `tokens` lists the tokens of a text, so that the place of a token is
its index.
-/

namespace Ripple.FullText

/-- The form in which a letter is indexed. -/
def indexedForm (c : Char) : Char := baseLetter (foldCase c)

/-- The longest word that is indexed, in bytes. -/
def maxTokenBytes : Nat := 32768

/-- The token of some letters. -/
def tokenOf (letters : List Char) : Token :=
  (Token.stem (letters.flatMap String.utf8EncodeChar)).take maxTokenBytes

/-- The words of a text in the form in which they are indexed, before they are cut to
    their stems. `word` holds the letters of the word that is being read, the last one
    first; there is none between words. -/
def words (word : Option (List Char)) : List Char → List (List Char)
  | [] => match word with
    | some letters => [letters.reverse]
    | none => []
  | c :: rest =>
    match word with
    | none => if isTokenLetter c then words (some [indexedForm c]) rest else words none rest
    | some letters =>
      if isTokenLetter c then words (some (indexedForm c :: letters)) rest
      else if isMark c then words (some letters) rest
      else letters.reverse :: words none rest

/-- The tokens of a text. -/
def tokens (text : String) : List Token := (words none text.toList).map tokenOf

end Ripple.FullText
