/-!
# Diacritics

`baseLetter` takes a folded Latin letter with one diacritic to the letter without it.
Letters with two diacritics and letters with a stroke are letters of their own.
`isMark` holds of the combining marks that stand for a diacritic.
-/

namespace Ripple.FullText

/-- The letters with one diacritic, by the letter without it. -/
def accented : List (Char × String) := [
  ('a', "àáâãäåāăąǎȁȃȧḁạả"),
  ('b', "ḃḅḇ"),
  ('c', "çćĉċč"),
  ('d', "ďḋḍḏḑḓ"),
  ('e', "èéêëēĕėęěȅȇȩḙḛẹẻẽ"),
  ('f', "ḟ"),
  ('g', "ĝğġģǧǵḡ"),
  ('h', "ĥȟḣḥḧḩḫẖ"),
  ('i', "ìíîïĩīĭįİǐȉȋḭỉị"),
  ('j', "ĵǰ"),
  ('k', "ķǩḱḳḵ"),
  ('l', "ĺļľḷḻḽ"),
  ('m', "ḿṁṃ"),
  ('n', "ñńņňǹṅṇṉṋ"),
  ('o', "òóôõöōŏőơǒǫȍȏȯọỏ"),
  ('p', "ṕṗ"),
  ('r', "ŕŗřȑȓṙṛṟ"),
  ('s', "śŝşšșṡṣ"),
  ('t', "ţťțṫṭṯṱẗ"),
  ('u', "ùúûüũūŭůűųưǔȕȗṳṵṷụủ"),
  ('v', "ṽṿ"),
  ('w', "ŵẁẃẅẇẉẘ"),
  ('x', "ẋẍ"),
  ('y', "ýÿŷȳẏẙỳỵỷỹ"),
  ('z', "źżžẑẓẕ")]

/-- A folded letter without its diacritic. -/
def baseLetter (c : Char) : Char :=
  if c.toNat < 128 then c
  else match accented.find? fun entry => entry.2.toList.contains c with
    | some entry => entry.1
    | none => c

/-- Whether a character is a combining mark that a token passes over. -/
def isMark (c : Char) : Bool :=
  let n := c.toNat
  (0x300 ≤ n && n ≤ 0x304) || (0x306 ≤ n && n ≤ 0x30C) || n == 0x30F || n == 0x311 ||
    n == 0x31B || (0x323 ≤ n && n ≤ 0x328) || n == 0x32D || n == 0x32E || n == 0x330 || n == 0x331

end Ripple.FullText
