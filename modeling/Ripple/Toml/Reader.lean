import Ripple.Toml.Quoted
import Ripple.Toml.Number
import Ripple.Toml.Tree

/-!
# Reading TOML

`Toml.ofText?` reads a text and gives the entries of its outermost table, if the text is
TOML. Arrays and inline tables nest to a limit, and so do the names in a key.
-/

namespace Ripple.Toml

/-- How many arrays and inline tables can lie in each other, and how many names a key can
    have. -/
def nestingLimit : Nat := 80

/-! ## Lines -/

/-- A text without the comment before it. -/
def skipComment (cs : List Char) : List Char :=
  match cs with
  | '#' :: rest => rest.dropWhile isPlain
  | cs => cs

/-- What follows the end of a line, after blanks and a comment. -/
def lineEnd? (cs : List Char) : Option (List Char) :=
  match skipComment (skipBlanks cs) with
  | [] => some []
  | rest => newline? rest

/-- What follows blanks, comments and line breaks. -/
def skipTrivia (inComment : Bool) : List Char → Option (List Char)
  | [] => some []
  | c :: rest =>
    if c = '\n' then skipTrivia false rest
    else if c = '\r' then
      match rest with
      | '\n' :: rest => skipTrivia false rest
      | _ => none
    else if inComment then if isPlain c then skipTrivia true rest else none
    else if isBlank c then skipTrivia false rest
    else if c = '#' then skipTrivia true rest
    else some (c :: rest)

/-! ## Keys -/

/-- Whether a character can stand in a key without quotes. -/
def isKeyCharacter (c : Char) : Bool := c.isAlphanum || c = '_' || c = '-'

/-- A name in a key. -/
def name (cs : List Char) : Option (String × List Char) :=
  match cs with
  | '"' :: rest => (Quoted.basic [] rest).map fun (text, rest) => (String.ofList text, rest)
  | '\'' :: rest => (Quoted.literal [] rest).map fun (text, rest) => (String.ofList text, rest)
  | cs =>
    match cs.takeWhile isKeyCharacter with
    | [] => none
    | text => some (String.ofList text, cs.dropWhile isKeyCharacter)

/-- The names of a key, with blanks around them. -/
def names : (fuel : Nat) → List Char → Option (List String × List Char)
  | 0, _ => none
  | fuel + 1, cs => do
    let (first, rest) ← name (skipBlanks cs)
    match skipBlanks rest with
    | '.' :: rest => do
      let (more, rest) ← names fuel rest
      return (first :: more, rest)
    | rest => return ([first], rest)

/-- A key: the names of tables, and the last name. -/
def key (cs : List Char) : Option ((List String × String) × List Char) := do
  let (all, rest) ← names cs.length cs
  if nestingLimit < all.length then none
  return ((all.dropLast, ← all.getLast?), rest)

/-! ## Values -/

mutual

/-- A value, inside `depth` arrays and inline tables. -/
def value : (fuel depth : Nat) → List Char → Option (Toml × List Char)
  | 0, _, _ => none
  | fuel + 1, depth, cs =>
    match cs with
    | [] => none
    | c :: rest =>
      if c = '"' ∨ c = '\'' then
        (Quoted.read (c :: rest)).map fun (text, rest) => (.string (String.ofList text), rest)
      else if c = '[' then
        if nestingLimit ≤ depth then none
        else (items fuel (depth + 1) rest).map fun (items, rest) => (.array items, rest)
      else if c = '\x7b' then
        if nestingLimit ≤ depth then none
        else match skipBlanks rest with
          | '\x7d' :: rest => some (.table [], rest)
          | rest => (entries fuel (depth + 1) [] rest).map fun (entries, rest) =>
            (.table (Tree.tomlEntries entries), rest)
      else if c = 't' then (Number.word? "rue".toList rest).map fun rest => (.other, rest)
      else if c = 'f' then (Number.word? "alse".toList rest).map fun rest => (.other, rest)
      else Number.read (c :: rest)
termination_by structural fuel => fuel

/-- The items of an array after its bracket or a comma. -/
def items : (fuel depth : Nat) → List Char → Option (List Toml × List Char)
  | 0, _, _ => none
  | fuel + 1, depth, cs => do
    match ← skipTrivia false cs with
    | ']' :: rest => return ([], rest)
    | cs => do
      let (item, rest) ← value fuel depth cs
      match ← skipTrivia false rest with
      | ']' :: rest => return ([item], rest)
      | ',' :: rest => do
        let (more, rest) ← items fuel depth rest
        return (item :: more, rest)
      | _ => none
termination_by structural fuel => fuel

/-- The entries of an inline table after its brace or a comma; `before` are those before. -/
def entries : (fuel depth : Nat) → Entries → List Char → Option (Entries × List Char)
  | 0, _, _, _ => none
  | fuel + 1, depth, before, cs => do
    let ((path, last), rest) ← key cs
    match rest with
    | '=' :: rest => do
      let (item, rest) ← value fuel depth (skipBlanks rest)
      let all ← Tree.put path last item before
      match skipBlanks rest with
      | '\x7d' :: rest => return (all, rest)
      | ',' :: rest => entries fuel depth all rest
      | _ => none
    | _ => none
termination_by structural fuel => fuel

end

/-! ## Documents -/

/-- A text that is being read: the tables so far, and the names that lead to the one to
    which lines are added. -/
structure Reading where
  /-- The entries of the outermost table. -/
  root : Entries
  /-- The names of the current table. -/
  current : List String

/-- A key and its value on a line, and what follows the line. -/
def keyLine (r : Reading) (cs : List Char) : Option (Reading × List Char) := do
  let ((path, last), rest) ← key cs
  match rest with
  | '=' :: rest => do
    let rest := skipBlanks rest
    let (item, rest) ← value (3 * rest.length + 3) 0 rest
    let rest ← lineEnd? rest
    return ({ r with root := ← Tree.within r.current (Tree.put path last item) r.root }, rest)
  | _ => none

/-- The header of a table after its bracket, and what follows the line. -/
def headerLine (r : Reading) (cs : List Char) : Option (Reading × List Char) := do
  let ((path, last), rest) ← key cs
  match rest with
  | ']' :: rest => do
    let rest ← lineEnd? rest
    return (⟨← Tree.within path (Tree.openTable last) r.root, path ++ [last]⟩, rest)
  | _ => none

/-- The header of an item of an array of tables after its brackets, and what follows the
    line. -/
def itemLine (r : Reading) (cs : List Char) : Option (Reading × List Char) := do
  let ((path, last), rest) ← key cs
  match rest with
  | ']' :: ']' :: rest => do
    let rest ← lineEnd? rest
    return (⟨← Tree.within path (Tree.openItem last) r.root, path ++ [last]⟩, rest)
  | _ => none

/-- Reads lines. -/
def lines : (fuel : Nat) → Reading → List Char → Option Reading
  | 0, _, _ => none
  | fuel + 1, r, cs =>
    match skipComment (skipBlanks cs) with
    | [] => some r
    | '[' :: '[' :: rest => do
      let (r, rest) ← itemLine r rest
      lines fuel r rest
    | '[' :: rest => do
      let (r, rest) ← headerLine r rest
      lines fuel r rest
    | rest =>
      match newline? rest with
      | some rest => lines fuel r rest
      | none => do
        let (r, rest) ← keyLine r rest
        lines fuel r rest

/-- The entries of the outermost table of a text, which may begin with a mark of its byte
    order. Each line takes a character or more, so their number is enough fuel. -/
def ofText? (text : String) : Option (List (String × Toml)) :=
  let cs := match text.toList with
    | '\ufeff' :: rest => rest
    | cs => cs
  (lines (cs.length + 1) ⟨[], []⟩ cs).map fun r => Tree.tomlEntries r.root

end Ripple.Toml
