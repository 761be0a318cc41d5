import Ripple.FullText.Query

/-!
# Matches

A phrase stands at a position of a document if its terms match the tokens from there
on. A position is a column and an offset in it; as numbers, the positions of different
columns are further apart than any distance, so that near phrases share a column.

`Query.hits?` says whether a document matches a query and how often each phrase counts:
the number of its positions that take part in the match.
-/

namespace Ripple.FullText

/-- The tokens of a document, by columns. -/
structure Document where
  /-- The tokens of the name. -/
  name : List Token
  /-- The tokens of the content. -/
  content : List Token
deriving DecidableEq, Repr

namespace Document

/-- The document of a name and a content. -/
def ofTexts (name content : String) : Document := ⟨tokens name, tokens content⟩

/-- The tokens of a column. -/
def column (d : Document) : Column → List Token
  | .nodeId => []
  | .name => d.name
  | .content => d.content

/-- The number of tokens. -/
def size (d : Document) : Nat := d.name.length + d.content.length

end Document

/-- The positions between the beginnings of two columns. -/
def columnSpan : Nat := 4294967296

/-- Whether a token is what a term means. -/
def Term.matches (term : Term) (token : Token) : Bool :=
  if term.wild then term.token.isPrefixOf token else term.token == token

/-- Whether terms match the tokens at the beginning of a list. -/
def startsWith : List Term → List Token → Bool
  | [], _ => true
  | _ :: _, [] => false
  | term :: terms, token :: rest => term.matches token && startsWith terms rest

/-- The offsets at which terms stand, in the tokens from an offset on. -/
def offsets (terms : List Term) (offset : Nat) : List Token → List Nat
  | [] => []
  | token :: rest =>
    let later := offsets terms (offset + 1) rest
    if startsWith terms (token :: rest) then offset :: later else later

/-- The positions of a phrase in some columns, in order. -/
def Phrase.positions (phrase : Phrase) (columns : List Column) (d : Document) : List Nat :=
  if phrase.terms.isEmpty then []
  else (Column.all.filter (· ∈ columns)).flatMap fun column =>
    let found := offsets phrase.terms 0 (d.column column)
    (if phrase.atStart then found.filter (· = 0) else found).map (column.index * columnSpan + ·)

/-! ## Near phrases -/

/-- The positions of one of some near phrases, as far as they have been looked at. -/
structure Cursor where
  /-- How far before the others the phrase can begin: its length and the distance. -/
  reach : Int
  /-- The position that is looked at. -/
  here : Nat
  /-- The positions after it. -/
  later : List Nat
  /-- The positions that take part in a match, the last one first. -/
  kept : List Nat

namespace Cursor

/-- The next position at which a phrase is not too far before `latest`. -/
def catchUp (latest : Nat) (reach : Int) (here : Nat) (kept : List Nat) :
    List Nat → Option Cursor
  | [] => if latest ≤ here + reach then some ⟨reach, here, [], kept⟩ else none
  | next :: later =>
    if latest ≤ here + reach then some ⟨reach, here, next :: later, kept⟩
    else catchUp latest reach next kept later

/-- A cursor whose position is kept, unless it was kept last. -/
def keep (c : Cursor) : Cursor :=
  if c.kept.head? = some c.here then c else { c with kept := c.here :: c.kept }

/-- Whether the next position of one cursor comes before that of another. -/
def before (a b : Cursor) : Bool :=
  match a.later, b.later with
  | x :: _, y :: _ => x < y
  | _ :: _, [] => true
  | [], _ => false

/-- Some cursors, of which the one with the least next position goes on to it; none if
    it has no next position. -/
def advance : List Cursor → Option (List Cursor)
  | [] => none
  | c :: rest =>
    if rest.any (·.before c) then (advance rest).map (c :: ·)
    else match c.later with
      | [] => none
      | next :: later => some ({ c with here := next, later } :: rest)

/-- The positions of each phrase that take part in a match. Each step moves a cursor on,
    so the number of positions is enough fuel. -/
def run : (fuel : Nat) → List Cursor → List (List Nat)
  | 0, cursors => cursors.map (·.kept.reverse)
  | fuel + 1, cursors =>
    let latest := cursors.foldl (fun latest c => max latest c.here) 0
    match cursors.mapM fun c => catchUp latest c.reach c.here c.kept c.later with
    | none => cursors.map (·.kept.reverse)
    | some moved =>
      if (moved.zip cursors).any fun (a, b) => a.here != b.here then run fuel moved
      else
        let kept := moved.map keep
        match advance kept with
        | none => kept.map (·.kept.reverse)
        | some cursors => run fuel cursors

/-- The cursor of a phrase at its first position. -/
def ofPositions (reach : Int) : List Nat → Option Cursor
  | [] => none
  | here :: later => some ⟨reach, here, later, []⟩

end Cursor

/-- For each phrase of a leaf the number of its positions that take part in a match, if
    the document matches. -/
def Leaf.hits? (leaf : Leaf) (d : Document) : Option (List Nat) :=
  match leaf.phrases with
  | [] => none
  | [phrase] =>
    match phrase.positions leaf.columns d with
    | [] => none
    | found => some [found.length]
  | phrases => do
    let cursors ← phrases.mapM fun phrase =>
      Cursor.ofPositions (phrase.terms.length + leaf.distance) (phrase.positions leaf.columns d)
    let total := cursors.foldl (fun total cursor => total + (cursor.later.length + 1)) 0
    let counts := (Cursor.run (total + 1) cursors).map List.length
    if counts.any (· = 0) then none else some counts

namespace Query

/-- The leaves of a query, from left to right. -/
def leaves : Query → List Leaf
  | .leaf l => [l]
  | .both left right | .either left right | .without left right => left.leaves ++ right.leaves

/-- A count of zero for each phrase. -/
def noHits (query : Query) : List Nat :=
  query.leaves.flatMap fun leaf => leaf.phrases.map fun _ => 0

/-- For each phrase of a query the number of its positions that take part in a match, if
    the document matches. -/
def hits? (d : Document) : Query → Option (List Nat)
  | .leaf l => l.hits? d
  | .both left right => do
    let a ← left.hits? d
    let b ← right.hits? d
    return a ++ b
  | .either left right =>
    match left.hits? d, right.hits? d with
    | none, none => none
    | a, b => some (a.getD left.noHits ++ b.getD right.noHits)
  | .without left right => do
    let a ← left.hits? d
    if (right.hits? d).isSome then none else some (a ++ right.noHits)

/-- Whether a document matches a query. -/
def holds (query : Query) (d : Document) : Bool := (query.hits? d).isSome

end Query

end Ripple.FullText
