import Ripple.FullText.Token

/-!
# Queries

A query is a tree of leaves joined by AND, OR and NOT. A leaf asks for one or more
phrases that stand near each other, in some of the columns of a document; a phrase is
a sequence of terms, and a term is a token or, if it is wild, the beginning of one.
-/

namespace Ripple.FullText

/-- The columns of a document. The identifier of its node is stored but not indexed. -/
inductive Column where
  /-- The identifier of the node. -/
  | nodeId
  /-- The name of the node. -/
  | name
  /-- The content of the node. -/
  | content
deriving DecidableEq, Repr

namespace Column

/-- All columns. -/
def all : List Column := [.nodeId, .name, .content]

/-- The name of a column. -/
def label : Column → String
  | .nodeId => "node_id"
  | .name => "name"
  | .content => "content"

/-- The number of a column. -/
def index : Column → Nat
  | .nodeId => 0
  | .name => 1
  | .content => 2

/-- The column of a name, in which the case of ASCII letters does not count. -/
def ofName? (name : List Char) : Option Column :=
  all.find? fun column => name.map Char.toLower == column.label.toList

end Column

/-- A token, or the beginning of tokens. -/
structure Term where
  /-- The token. -/
  token : Token
  /-- Whether longer tokens that begin with it are meant as well. -/
  wild : Bool
deriving DecidableEq, Repr

/-- Terms that follow each other. -/
structure Phrase where
  /-- The terms. -/
  terms : List Term
  /-- Whether the first of them must be the first token of a column. -/
  atStart : Bool
deriving DecidableEq, Repr

/-- Phrases that stand near each other. -/
structure Leaf where
  /-- The columns in which they can stand. -/
  columns : List Column
  /-- The phrases. -/
  phrases : List Phrase
  /-- How many tokens may lie between them. With a negative number they overlap. -/
  distance : Int
deriving DecidableEq, Repr

/-- Whether a leaf asks for nothing, having no tokens. -/
def Leaf.isEmpty (leaf : Leaf) : Bool := leaf.phrases.all (·.terms.isEmpty)

/-- A query. -/
inductive Query where
  /-- Phrases near each other. -/
  | leaf (leaf : Leaf)
  /-- What matches both. -/
  | both (left right : Query)
  /-- What matches one or both. -/
  | either (left right : Query)
  /-- What matches the first and not the second. -/
  | without (left right : Query)
deriving DecidableEq, Repr

namespace Query

/-- A query confined to some columns. -/
def restrict (columns : List Column) : Query → Query
  | .leaf l => .leaf { l with columns := l.columns.filter (· ∈ columns) }
  | .both left right => .both (left.restrict columns) (right.restrict columns)
  | .either left right => .either (left.restrict columns) (right.restrict columns)
  | .without left right => .without (left.restrict columns) (right.restrict columns)

/-- Whether a query is an AND. -/
def isBoth : Query → Bool
  | .both .. => true
  | _ => false

/-- Whether a query is an OR. -/
def isEither : Query → Bool
  | .either .. => true
  | _ => false

/-- The height of the tree, in which a chain of ANDs is one node and so is a chain of
    ORs. -/
def height : Query → Nat
  | .leaf _ => 0
  | .both left right =>
    max (left.height + if left.isBoth then 0 else 1) (right.height + if right.isBoth then 0 else 1)
  | .either left right =>
    max (left.height + if left.isEither then 0 else 1)
      (right.height + if right.isEither then 0 else 1)
  | .without left right => max left.height right.height + 1

end Query

end Ripple.FullText
