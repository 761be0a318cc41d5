import Ripple.FullText.Query
import Ripple.FullText.Symbol

/-!
# The grammar of queries

NOT binds tighter than AND and AND tighter than OR; all three group to the left. Phrases
side by side, which must all match, bind tighter still. A column filter stands before a
single group of phrases or before parentheses, and parentheses do not stand side by side.

`Query.ofText?` is the query of a text, if it is one. Whoever reads a query keeps what
waits to be completed: parentheses and operands that are still open, and within a phrase
the words, the signs and the column filter that have been read. `pending` is the number of
these parts at each place. There is room for a limited number of them, and the tree must not
be too high.
-/

namespace Ripple.FullText

/-- How many parts can wait while a query is read. -/
def maxPending : Nat := 99

/-- The greatest height of a query. -/
def maxHeight : Nat := 256

/-- The distance between near phrases if none is given. -/
def defaultDistance : Int := 10

/-! ## Phrases -/

/-- The tokens of a quoted string or word. -/
def wordTokens (text : List Char) : List Token := tokens (String.ofList text)

/-- Makes the last term wild, or not. -/
def markLast (wild : Bool) : List Term → List Term
  | [] => []
  | [last] => [{ last with wild }]
  | term :: terms => term :: markLast wild terms

/-- Some terms and those of one more word, the last of which may be wild. -/
def addWord (terms : List Term) (text : List Char) (wild : Bool) : List Term :=
  markLast wild (terms ++ (wordTokens text).map fun token => ⟨token, false⟩)

/-- What follows a star, if one is there. -/
def skipStar : List Symbol → Bool × List Symbol
  | .star :: rest => (true, rest)
  | rest => (false, rest)

/-- The terms of the words after a plus sign each. The phrase up to there, the sign, the
    word and its star wait together, whether the star is there or not. -/
def moreTerms (pending : Nat) (terms : List Term) :
    List Symbol → Option (List Term × List Symbol)
  | .plus :: .word text _ :: .star :: rest =>
    if pending + 4 ≤ maxPending then moreTerms pending (addWord terms text true) rest else none
  | .plus :: .word text _ :: rest =>
    if pending + 4 ≤ maxPending then moreTerms pending (addWord terms text false) rest else none
  | .plus :: _ => none
  | rest => some (terms, rest)

/-- The terms of a phrase. Its first word and the star of that wait together. -/
def phraseTerms (pending : Nat) (text : List Char) (rest : List Symbol) :
    Option (List Term × List Symbol) :=
  let (wild, rest) := skipStar rest
  if pending + 2 ≤ maxPending then moreTerms pending (addWord [] text wild) rest else none

/-- The phrases of a NEAR after its first, and what follows them. -/
def nearPhrases (pending : Nat) : (fuel : Nat) → List Symbol → Option (List Phrase × List Symbol)
  | 0, _ => none
  | fuel + 1, .word text _ :: rest => do
    let (terms, rest) ← phraseTerms pending text rest
    let (phrases, rest) ← nearPhrases pending fuel rest
    return (⟨terms, false⟩ :: phrases, rest)
  | _, rest => some ([], rest)

/-- Near phrases without those that have no terms, unless none has any. -/
def dropEmpty (phrases : List Phrase) : List Phrase :=
  match phrases.filter (!·.terms.isEmpty) with
  | [] => phrases.take 1
  | kept => kept

/-- The number that some digits write, in a word of 32 bits with a sign. What it has no room
    for is lost, so the number can be negative. -/
def distanceOf? (digits : List Char) : Option Int :=
  if digits.all Char.isDigit then
    some (digits.foldl (fun n c => n * 10 + Int32.ofNat (c.toNat - 48)) 0 : Int32).toInt
  else none

/-- The end of a NEAR: its distance. -/
def nearEnd : List Symbol → Option (Int × List Symbol)
  | .closeParen :: rest => some (defaultDistance, rest)
  | .comma :: .word digits false :: .closeParen :: rest =>
    (distanceOf? digits).map fun distance => (distance, rest)
  | _ => none

/-- The phrases at the beginning of some symbols, without a column filter. The five parts of
    a NEAR wait together: the word, the parentheses, the phrases and the distance. -/
def near (pending : Nat) : List Symbol → Option (Leaf × List Symbol)
  | .word name isQuoted :: .openParen :: .word text _ :: rest =>
    if name = ['N', 'E', 'A', 'R'] ∧ !isQuoted ∧ pending + 5 ≤ maxPending then do
      let (terms, rest) ← phraseTerms (pending + 2) text rest
      let (phrases, rest) ← nearPhrases (pending + 3) (rest.length + 1) rest
      let (distance, rest) ← nearEnd rest
      return (⟨Column.all, dropEmpty (⟨terms, false⟩ :: phrases), distance⟩, rest)
    else none
  | .word _ _ :: .openParen :: _ => none
  | .word text _ :: rest => do
    let (terms, rest) ← phraseTerms pending text rest
    return (⟨Column.all, [⟨terms, false⟩], defaultDistance⟩, rest)
  | .caret :: .word text _ :: rest => do
    let (terms, rest) ← phraseTerms (pending + 1) text rest
    return (⟨Column.all, [⟨terms, true⟩], defaultDistance⟩, rest)
  | _ => none

/-! ## Column filters -/

/-- The columns named up to a closing brace. -/
def bracedColumns : List Symbol → Option (List Column × List Symbol)
  | .word name _ :: .closeBrace :: rest => do
    return ([← Column.ofName? name], rest)
  | .word name _ :: rest => do
    let column ← Column.ofName? name
    let (columns, rest) ← bracedColumns rest
    return (column :: columns, rest)
  | _ => none

/-- One column, or some in braces. -/
def columnNames : List Symbol → Option (List Column × List Symbol)
  | .openBrace :: rest => bracedColumns rest
  | .word name _ :: rest => do
    return ([← Column.ofName? name], rest)
  | _ => none

/-- Whether a column filter stands at the beginning of some symbols. -/
def hasFilter : List Symbol → Bool
  | .minus :: _ | .openBrace :: _ | .word _ _ :: .colon :: _ => true
  | _ => false

/-- The columns that a filter leaves, and what follows its colon. -/
def columnFilter (symbols : List Symbol) : Option (List Column × List Symbol) := do
  let (columns, rest) ← match symbols with
    | .minus :: rest => do
      let (columns, rest) ← columnNames rest
      pure (Column.all.filter (· ∉ columns), rest)
    | symbols => columnNames symbols
  match rest with
  | .colon :: rest => return (columns, rest)
  | _ => none

/-! ## Queries -/

/-- A leaf, with a column filter or without. The filter and its colon wait for the phrases,
    and these take more room than it took to read the filter. -/
def leafAt (pending : Nat) (symbols : List Symbol) : Option (Leaf × List Symbol) :=
  if hasFilter symbols then do
    let (columns, rest) ← columnFilter symbols
    let (leaf, rest) ← near (pending + 2) rest
    return ({ leaf with columns }, rest)
  else near pending symbols

/-- Whether another leaf begins. -/
def beginsLeaf : List Symbol → Bool
  | .word _ _ :: _ | .caret :: _ | .minus :: _ | .openBrace :: _ => true
  | _ => false

/-- The leaves side by side after the first. -/
def moreLeaves (pending : Nat) : (fuel : Nat) → List Symbol → Option (List Leaf × List Symbol)
  | 0, _ => none
  | fuel + 1, symbols =>
    if beginsLeaf symbols then do
      let (leaf, rest) ← leafAt pending symbols
      let (leaves, rest) ← moreLeaves pending fuel rest
      return (leaf :: leaves, rest)
    else some ([], symbols)

/-- Leaves side by side as one query. Those that ask for nothing are dropped, unless
    all do. -/
def sideBySide (first : Leaf) (more : List Leaf) : Query :=
  match (first :: more).filter (!·.isEmpty) with
  | [] => .leaf first
  | leaf :: leaves => leaves.foldl (fun query leaf => .both query (.leaf leaf)) (.leaf leaf)

/-- The operators, the one that binds loosest first. -/
def operators : List Operator := [.or, .and, .not]

/-- Two queries under an operator. -/
def join : Operator → Query → Query → Query
  | .or => .either
  | .and => .both
  | .not => .without

mutual

/-- A query whose operators are among the given ones. `pending` is what waits. -/
def expression : (fuel pending : Nat) → List Operator → List Symbol →
    Option (Query × List Symbol)
  | 0, _, _, _ => none
  | fuel + 1, pending, [], symbols => primary fuel pending symbols
  | fuel + 1, pending, op :: tighter, symbols => do
    let (left, rest) ← expression fuel pending tighter symbols
    operands fuel pending op tighter left rest
termination_by structural fuel => fuel

/-- The right operands of an operator, each joined to what stands left of it. -/
def operands : (fuel pending : Nat) → Operator → List Operator → Query → List Symbol →
    Option (Query × List Symbol)
  | 0, _, _, _, _, _ => none
  | fuel + 1, pending, op, tighter, left, symbols =>
    match symbols with
    | .operator next :: rest =>
      if next = op then do
        let (right, rest) ← expression fuel (pending + 2) tighter rest
        operands fuel pending op tighter (join op left right) rest
      else some (left, symbols)
    | _ => some (left, symbols)
termination_by structural fuel => fuel

/-- A query in parentheses, or leaves side by side. -/
def primary : (fuel pending : Nat) → List Symbol → Option (Query × List Symbol)
  | 0, _, _ => none
  | fuel + 1, pending, symbols =>
    let grouped (pending : Nat) (rest : List Symbol) : Option (Query × List Symbol) :=
      match expression fuel pending operators rest with
      | some (query, .closeParen :: rest) => some (query, rest)
      | _ => none
    let leaves (first : Leaf) (rest : List Symbol) : Option (Query × List Symbol) :=
      (moreLeaves (pending + 1) (rest.length + 1) rest).map fun (more, rest) =>
        (sideBySide first more, rest)
    match symbols with
    | .openParen :: rest => grouped (pending + 1) rest
    | symbols =>
      if hasFilter symbols then
        match columnFilter symbols with
        | none => none
        | some (columns, .openParen :: rest) =>
          (grouped (pending + 3) rest).map fun (query, rest) => (query.restrict columns, rest)
        | some (columns, rest) => do
          let (leaf, rest) ← near (pending + 2) rest
          leaves { leaf with columns } rest
      else do
        let (leaf, rest) ← near pending symbols
        leaves leaf rest
termination_by structural fuel => fuel

end

namespace Query

/-- The query of some symbols. Each symbol is passed at most once, after one step for
    each operator and one for the parentheses. -/
def ofSymbols? (symbols : List Symbol) : Option Query :=
  match expression (8 * symbols.length + 8) 0 operators symbols with
  | some (query, []) => if query.height ≤ maxHeight then some query else none
  | _ => none

/-- The query of a text. -/
def ofText? (text : List Char) : Option Query := do
  ofSymbols? (← Symbol.readAll .nothing text)

end Query

/-! ## Search texts -/

/-- What a text asks of the index. -/
inductive Request where
  /-- The matches of a query. -/
  | query (query : Query)
  /-- A number about the index itself, which no document matches. -/
  | special
deriving DecidableEq, Repr

/-- Whether the word after a star names something that the index tells about itself. -/
def isSpecial (word : List Char) : Bool :=
  let word := word.map Char.toLower
  word == ['r', 'e', 'a', 'd', 's'] || word == ['i', 'd']

/-- What a text asks of the index, or nothing if it is no query. A NUL ends the text. -/
def Request.ofText? (text : String) : Option Request :=
  match text.toList.takeWhile (· ≠ '\x00') with
  | '*' :: rest =>
    if isSpecial ((rest.dropWhile (· = ' ')).takeWhile (· ≠ ' ')) then some .special else none
  | cs => (Query.ofText? cs).map .query

end Ripple.FullText
