import Ripple.Toml.Reader
import Ripple.Proofs.Toml.Number
import Ripple.Proofs.Toml.Quoted

/-!
# Reading sections of TOML back

A `Field` is a key without quotes, the text of a value and the value. A section is the header of a
table and some fields, each on a line of its own (`Field.sectionText`). A section whose fields are
written as their values (`Field.Written`), under a name and keys that are new, is read as a table
with these values (`lines_section`).
-/

namespace Ripple.Toml

/-! ## Trees -/

namespace Tree

variable {key : String} {entries : Entries} {tree : Tree}

/-- Entries of other keys stay before the one that is changed. -/
theorem update_append (h : key ∉ entries.map Prod.fst) (change : Option Tree → Option Tree)
    (rest : Entries) :
    update key change (entries ++ rest) = (update key change rest).map (entries ++ ·) := by
  induction entries with
  | nil => simp
  | cons entry entries ih =>
    obtain ⟨other, tree⟩ := entry
    rw [List.map_cons, List.mem_cons, not_or] at h
    rw [List.cons_append, update, if_neg (Ne.symm h.1), ih h.2, Option.map_map]
    rfl

/-- An entry of a new key comes last. -/
theorem put_of_not_mem (h : key ∉ entries.map Prod.fst) (value : Toml) :
    put [] key value entries = some (entries ++ [(key, .value value)]) := by
  have hput : put [] key value (entries ++ []) = (put [] key value []).map (entries ++ ·) :=
    update_append h _ []
  rw [List.append_nil] at hput
  exact hput

/-- A table of a new name comes last. -/
theorem openTable_of_not_mem (h : key ∉ entries.map Prod.fst) :
    openTable key entries = some (entries ++ [(key, .table .header [])]) := by
  have hopen : openTable key (entries ++ []) = (openTable key []).map (entries ++ ·) :=
    update_append h _ []
  rw [List.append_nil] at hopen
  exact hopen

/-- The last table is changed if it is the one of a name. -/
theorem within_append_self (h : key ∉ entries.map Prod.fst) {origin : Origin}
    {inner inner' : Entries} {change : Entries → Option Entries}
    (hchange : change inner = some inner') :
    within [key] change (entries ++ [(key, .table origin inner)]) =
      some (entries ++ [(key, .table origin inner')]) := by
  rw [within, update_append h, update, if_pos rfl]
  simp [within, hchange]

end Tree

/-! ## Keys -/

/-- Whether a text can be a key without quotes. -/
def IsBare (key : List Char) : Prop := key ≠ [] ∧ ∀ c ∈ key, isKeyCharacter c

instance (key : List Char) : Decidable (IsBare key) :=
  decidable_of_iff (key ≠ [] ∧ key.all isKeyCharacter) (by simp [IsBare])

variable {key text rest : List Char}

theorem IsBare.exists_cons (h : IsBare key) :
    ∃ c more, key = c :: more ∧ isKeyCharacter c := by
  obtain ⟨hne, hall⟩ := h
  obtain ⟨c, more, rfl⟩ := List.exists_cons_of_ne_nil hne
  exact ⟨c, more, rfl, hall c List.mem_cons_self⟩

theorem ne_of_isKeyCharacter {c d : Char} (hc : isKeyCharacter c) (hd : isKeyCharacter d = false) :
    c ≠ d := by
  rintro rfl
  rw [hc] at hd
  cases hd

theorem skipBlanks_of_isKeyCharacter {c : Char} (hc : isKeyCharacter c) (rest : List Char) :
    skipBlanks (c :: rest) = c :: rest := by
  have hspace := ne_of_isKeyCharacter hc (d := ' ') (by decide)
  have htab := ne_of_isKeyCharacter hc (d := '\t') (by decide)
  rw [skipBlanks, List.dropWhile_cons_of_neg (by simp [isBlank, hspace, htab])]

/-- A key without quotes is read to its end. -/
theorem name_append (h : IsBare key) (hrest : ∀ c ∈ rest.head?, isKeyCharacter c = false) :
    name (key ++ rest) = some (String.ofList key, rest) := by
  have htake : (key ++ rest).takeWhile isKeyCharacter = key := by
    rw [List.takeWhile_append_of_pos h.2]
    cases rest with
    | nil => simp
    | cons c rest => rw [List.takeWhile_cons_of_neg (by simp [hrest c rfl]), List.append_nil]
  have hdrop : (key ++ rest).dropWhile isKeyCharacter = rest := by
    rw [List.dropWhile_append_of_pos h.2]
    cases rest with
    | nil => rfl
    | cons c rest => rw [List.dropWhile_cons_of_neg (by simp [hrest c rfl])]
  obtain ⟨c, more, rfl, hc⟩ := h.exists_cons
  have hquote := ne_of_isKeyCharacter hc (d := '"') (by decide)
  have hmark := ne_of_isKeyCharacter hc (d := '\'') (by decide)
  rw [name.eq_def]
  split
  · rename_i hcs
    exact absurd (List.cons.inj hcs).1 hquote
  · rename_i hcs
    exact absurd (List.cons.inj hcs).1 hmark
  · rw [htake, hdrop]

/-- A key of one name without quotes is read up to what follows it. -/
theorem key_append (h : IsBare key) (hrest : ∀ c ∈ rest.head?, isKeyCharacter c = false)
    (hdot : ∀ c ∈ (skipBlanks rest).head?, c ≠ '.') :
    Toml.key (key ++ rest) = some (([], String.ofList key), skipBlanks rest) := by
  have hskip : skipBlanks (key ++ rest) = key ++ rest := by
    obtain ⟨c, more, rfl, hc⟩ := h.exists_cons
    exact skipBlanks_of_isKeyCharacter hc _
  obtain ⟨n, hn⟩ : ∃ n, (key ++ rest).length = n + 1 := by
    obtain ⟨c, more, rfl, -⟩ := h.exists_cons
    exact ⟨_, rfl⟩
  have hnames : names (key ++ rest).length (key ++ rest) =
      some ([String.ofList key], skipBlanks rest) := by
    rw [hn, names, hskip, name_append h hrest]
    simp only [Option.bind_eq_bind, Option.bind_some]
    split
    · rename_i hcs
      exact absurd rfl (hdot '.' (by rw [hcs]; rfl))
    · rfl
  rw [Toml.key, hnames]
  rfl

/-! ## Values -/

/-- A text is read as a value at the end of a line, and does not begin with a blank. -/
structure Writes (text : List Char) (v : Toml) : Prop where
  value : ∀ fuel rest, Toml.value (fuel + 1) 0 (text ++ '\n' :: rest) = some (v, '\n' :: rest)
  skipBlanks : ∀ rest, skipBlanks (text ++ rest) = text ++ rest

/-- A string is read from the form in which it is written. -/
theorem writes_quoted (cs : List Char) : Writes (Quoted.write cs) (.string (String.ofList cs)) := by
  have hread (rest : List Char) :
      Quoted.read (Quoted.write cs ++ '\n' :: rest) = some (cs, '\n' :: rest) :=
    Quoted.read_write cs (by simp)
  obtain ⟨c, more, hwrite, hc⟩ : ∃ c more, Quoted.write cs = c :: more ∧ (c = '"' ∨ c = '\'') := by
    rw [Quoted.write.eq_def]
    cases Quoted.form cs <;> exact ⟨_, _, rfl, by simp⟩
  refine ⟨fun fuel rest => ?_, fun rest => ?_⟩
  · have hrest := hread rest
    rw [hwrite, List.cons_append] at hrest ⊢
    rw [Toml.value, if_pos hc, hrest]
    rfl
  · rw [hwrite, List.cons_append, Toml.skipBlanks, List.dropWhile_cons_of_neg]
    rcases hc with rfl | rfl <;> decide

/-- A number that fits 64 bits is read from its digits. -/
theorem writes_toDigits {n : ℕ} (hn : (n : ℤ) ≤ maxInteger) :
    Writes (Nat.toDigits 10 n) (.integer n) := by
  obtain ⟨c, more, hdigits⟩ := List.exists_cons_of_ne_nil (Nat.toDigits_ne_nil (b := 10) (n := n))
  have hc : c.isDigit := (isNumeral_toDigits n).digits c (by simp [hdigits])
  have hne {d : Char} (hd : ¬d.isDigit) : c ≠ d := by
    rintro rfl
    exact hd hc
  refine ⟨fun fuel rest => ?_, fun rest => ?_⟩
  · have hread : Number.read (Nat.toDigits 10 n ++ '\n' :: rest) =
        some (.integer n, '\n' :: rest) := Number.read_toDigits hn
    rw [hdigits, List.cons_append] at hread ⊢
    rw [Toml.value.eq_def]
    have hquote : c ≠ '"' := hne (by decide)
    have hmark : c ≠ '\'' := hne (by decide)
    have hbracket : c ≠ '[' := hne (by decide)
    have hbrace : c ≠ '\x7b' := hne (by decide)
    have ht : c ≠ 't' := hne (by decide)
    have hf : c ≠ 'f' := hne (by decide)
    simp [hquote, hmark, hbracket, hbrace, ht, hf, hread]
  · have hspace : c ≠ ' ' := hne (by decide)
    have htab : c ≠ '\t' := hne (by decide)
    rw [hdigits, List.cons_append, Toml.skipBlanks,
      List.dropWhile_cons_of_neg (by simp [isBlank, hspace, htab])]

/-! ## Lines -/

theorem lines_break (fuel : ℕ) (r : Reading) (rest : List Char) :
    lines (fuel + 1) r ('\n' :: rest) = lines fuel r rest := by
  rw [lines]
  rfl

/-- The header of a new table is read up to the end of its line. -/
theorem lines_header (h : IsBare key) {r : Reading} (hnew : String.ofList key ∉ r.root.map Prod.fst)
    (fuel : ℕ) (rest : List Char) :
    lines (fuel + 1) r ('[' :: key ++ ']' :: '\n' :: rest) =
      lines fuel ⟨r.root ++ [(String.ofList key, .table .header [])], [String.ofList key]⟩
        rest := by
  have hkey : Toml.key (key ++ ']' :: '\n' :: rest) =
      some (([], String.ofList key), ']' :: '\n' :: rest) :=
    key_append h (by simp [isKeyCharacter]) (by simp [skipBlanks, isBlank])
  have hheader : headerLine r (key ++ ']' :: '\n' :: rest) =
      some (⟨r.root ++ [(String.ofList key, .table .header [])], [String.ofList key]⟩, rest) := by
    have hend : lineEnd? ('\n' :: rest) = some rest := rfl
    simp only [headerLine, hkey, Option.bind_eq_bind, Option.bind_some, hend, Tree.within,
      Tree.openTable_of_not_mem hnew]
    rfl
  obtain ⟨c, more, rfl, hc⟩ := h.exists_cons
  have hbracket := ne_of_isKeyCharacter hc (d := '[') (by decide)
  rw [lines]
  simp only [List.cons_append] at hheader ⊢
  simp [skipBlanks, isBlank, skipComment, hbracket, hheader]

/-- A key and its value are read up to the end of their line. -/
theorem lines_key (h : IsBare key) {v : Toml} (htext : Writes text v) {r : Reading}
    {root : Entries}
    (hroot : Tree.within r.current (Tree.put [] (String.ofList key) v) r.root = some root)
    (fuel : ℕ) (rest : List Char) :
    lines (fuel + 1) r (key ++ ' ' :: '=' :: ' ' :: (text ++ '\n' :: rest)) =
      lines fuel { r with root } rest := by
  have hkey : Toml.key (key ++ ' ' :: '=' :: ' ' :: (text ++ '\n' :: rest)) =
      some (([], String.ofList key), '=' :: ' ' :: (text ++ '\n' :: rest)) :=
    key_append h (by simp [isKeyCharacter]) (by simp [skipBlanks, isBlank])
  have hblanks : skipBlanks (' ' :: (text ++ '\n' :: rest)) = text ++ '\n' :: rest :=
    htext.skipBlanks _
  have hend : lineEnd? ('\n' :: rest) = some rest := rfl
  have hline : keyLine r (key ++ ' ' :: '=' :: ' ' :: (text ++ '\n' :: rest)) =
      some ({ r with root }, rest) := by
    simp only [keyLine, hkey, Option.bind_eq_bind, Option.bind_some, hblanks, htext.value, hend,
      hroot]
    rfl
  obtain ⟨c, more, rfl, hc⟩ := h.exists_cons
  have hbracket := ne_of_isKeyCharacter hc (d := '[') (by decide)
  have hcomment := ne_of_isKeyCharacter hc (d := '#') (by decide)
  have hfeed := ne_of_isKeyCharacter hc (d := '\n') (by decide)
  have hreturn := ne_of_isKeyCharacter hc (d := '\r') (by decide)
  rw [lines, List.cons_append, skipBlanks_of_isKeyCharacter hc]
  rw [List.cons_append] at hline
  simp [skipComment.eq_def, newline?.eq_def, hbracket, hcomment, hfeed, hreturn, hline]

/-! ## Sections -/

/-- A key, the text of its value and the value. -/
structure Field where
  /-- The key. -/
  key : List Char
  /-- The text of the value. -/
  text : List Char
  /-- The value. -/
  value : Toml

namespace Field

/-- The line of a field. -/
def line (field : Field) : List Char :=
  field.key ++ ' ' :: '=' :: ' ' :: (field.text ++ ['\n'])

/-- The header of a table and the lines of its fields. -/
def sectionText (name : List Char) (fields : List Field) : List Char :=
  '[' :: name ++ ']' :: '\n' :: fields.flatMap line

/-- A section of one field. -/
theorem sectionText_singleton {name key text start : List Char} {v : Toml}
    (hstart : start = '[' :: name ++ ']' :: '\n' :: (key ++ [' ', '=', ' '])) :
    sectionText name [⟨key, text, v⟩] = start ++ text ++ ['\n'] := by
  subst hstart
  simp [sectionText, line]

/-- A section of two fields. -/
theorem sectionText_pair {name key key' text text' start next : List Char} {v v' : Toml}
    (hstart : start = '[' :: name ++ ']' :: '\n' :: (key ++ [' ', '=', ' ']))
    (hnext : next = '\n' :: (key' ++ [' ', '=', ' '])) :
    sectionText name [⟨key, text, v⟩, ⟨key', text', v'⟩] =
      start ++ text ++ next ++ text' ++ ['\n'] := by
  subst hstart hnext
  simp [sectionText, line]

/-- A section has more characters than fields. -/
theorem length_lt_length_sectionText (name : List Char) (fields : List Field) :
    fields.length < (sectionText name fields).length := by
  have hlines : fields.length ≤ (fields.flatMap line).length := by
    induction fields with
    | nil => simp
    | cons field fields ih =>
      rw [List.flatMap_cons, List.length_append, List.length_cons, line, List.length_append,
        List.length_cons]
      omega
  rw [sectionText, List.length_append, List.length_cons, List.length_cons, List.length_cons]
  omega

/-- The entry of a field. -/
def entry (field : Field) : String × Tree := (String.ofList field.key, .value field.value)

/-- A field whose text is read as its value. -/
structure Holds (field : Field) : Prop where
  key : IsBare field.key
  text : Writes field.text field.value

end Field

variable {name : List Char} {fields : List Field} {root : Entries}

/-- Fields with new keys are added to the last table. -/
theorem lines_fields (hroot : String.ofList name ∉ root.map Prod.fst)
    (hfields : ∀ field ∈ fields, field.Holds) (inner : Entries)
    (hkeys : ((inner ++ fields.map Field.entry).map Prod.fst).Nodup) (fuel : ℕ)
    (rest : List Char) :
    lines (fuel + fields.length)
        ⟨root ++ [(String.ofList name, .table .header inner)], [String.ofList name]⟩
        (fields.flatMap Field.line ++ rest) =
      lines fuel ⟨root ++ [(String.ofList name, .table .header (inner ++ fields.map Field.entry))],
        [String.ofList name]⟩ rest := by
  induction fields generalizing inner with
  | nil => simp
  | cons field fields ih =>
    rw [List.forall_mem_cons] at hfields
    have hnew : String.ofList field.key ∉ inner.map Prod.fst := by
      rw [List.map_append, List.nodup_append] at hkeys
      intro hmem
      exact hkeys.2.2 _ hmem _ (by simp [Field.entry]) rfl
    have hput : Tree.within [String.ofList name]
        (Tree.put [] (String.ofList field.key) field.value)
        (root ++ [(String.ofList name, .table .header inner)]) =
          some (root ++ [(String.ofList name, .table .header (inner ++ [field.entry]))]) :=
      Tree.within_append_self hroot (Tree.put_of_not_mem hnew field.value)
    have hline := lines_key hfields.1.key hfields.1.text
      (r := ⟨root ++ [(String.ofList name, .table .header inner)], [String.ofList name]⟩) hput
      (fuel + fields.length) (fields.flatMap Field.line ++ rest)
    have hrest := ih hfields.2 (inner ++ [field.entry]) (by simpa using hkeys)
    rw [List.append_assoc] at hrest
    simp only [List.flatMap_cons, Field.line, List.append_assoc, List.cons_append,
      List.nil_append] at hline hrest ⊢
    exact hline.trans hrest

/-- A section with a new name is read as a table with the values of its fields. -/
theorem lines_section (hname : IsBare name) (hroot : String.ofList name ∉ root.map Prod.fst)
    (hfields : ∀ field ∈ fields, field.Holds)
    (hkeys : ((fields.map Field.entry).map Prod.fst).Nodup) (current : List String) (fuel : ℕ)
    (rest : List Char) :
    lines (fuel + fields.length + 1) ⟨root, current⟩ (Field.sectionText name fields ++ rest) =
      lines fuel ⟨root ++ [(String.ofList name, .table .header (fields.map Field.entry))],
        [String.ofList name]⟩ rest := by
  have hheader := lines_header hname (r := ⟨root, current⟩) hroot (fuel + fields.length)
    (fields.flatMap Field.line ++ rest)
  simp only [Field.sectionText, List.append_assoc, List.cons_append] at hheader ⊢
  exact hheader.trans (lines_fields hroot hfields [] hkeys fuel rest)

/-! ## Texts -/

/-- The values of entries are those of each of them. -/
theorem tomlEntries_eq_map (entries : Entries) :
    Tree.tomlEntries entries = entries.map Tree.tomlEntry := by
  induction entries with
  | nil => rw [Tree.tomlEntries, List.map_nil]
  | cons entry entries ih => rw [Tree.tomlEntries, ih, List.map_cons]

/-- A text without a byte order mark is read from its first character. -/
theorem ofText?_ofList {cs : List Char} (h : ∀ c ∈ cs.head?, c ≠ '\ufeff') :
    ofText? (String.ofList cs) =
      (lines (cs.length + 1) ⟨[], []⟩ cs).map fun r => Tree.tomlEntries r.root := by
  rw [ofText?, String.toList_ofList]
  split
  · exact absurd rfl (h '\ufeff' (by simp))
  · rfl

end Ripple.Toml
