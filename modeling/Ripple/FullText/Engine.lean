import Ripple.FullText.Grammar
import Ripple.FullText.Rank

/-!
# What reads search texts

An `Engine` takes a search text for a `Matcher`, or refuses it if it is no query. Whether a
matcher finds a row depends on the texts of that row alone, and it finds each such row once.
The order in which they come may depend on all rows.

`Engine.standard` takes the language of `Query.ofText?` and ranks as `Query.rank` does.
-/

namespace Ripple.FullText

/-- What is indexed of a row. -/
structure Texts where
  /-- The name. -/
  name : String
  /-- The content. -/
  content : String
deriving DecidableEq, Repr

/-- The document of some texts. -/
def Texts.document (texts : Texts) : Document := .ofTexts texts.name texts.content

/-- What a query asks of rows with identifiers. -/
structure Matcher where
  /-- Whether a row with some texts is found. -/
  finds : Texts → Bool
  /-- The identifiers of the rows that are found, the best match first. -/
  rank : List (String × Texts) → List String
  /-- Ranking puts what is found into an order and does nothing else. -/
  perm_rank (rows : List (String × Texts)) :
    (rank rows).Perm ((rows.filter (finds ·.2)).map Prod.fst)

/-- What reads search texts. -/
structure Engine where
  /-- What a text asks, or nothing if it is no query. -/
  matcher? : String → Option Matcher

/-! ## The language of queries -/

/-- Ranking keeps the matches of a query and puts them into another order. -/
theorem Query.perm_rank {α : Type} (query : Query) (things : List (α × Document)) :
    (query.rank things).Perm ((things.filter (query.holds ·.2)).map Prod.fst) := by
  rw [rank]
  refine ((List.mergeSort_perm _ _).map Prod.fst).trans (.of_eq ?_)
  -- The weights depend on all documents, but what has a score does not.
  generalize query.weights (things.map Prod.snd) = weights
  generalize averageSize (things.map Prod.snd) = average
  induction things with
  | nil => rfl
  | cons thing things ih =>
    obtain ⟨a, d⟩ := thing
    cases hhits : query.hits? d with
    | none => simpa [holds, hhits] using ih
    | some hits => simpa [holds, hhits] using ih

/-- What a query asks. -/
def Query.matcher (query : Query) : Matcher where
  finds texts := query.holds texts.document
  rank rows := query.rank (rows.map fun row => (row.1, row.2.document))
  perm_rank rows := by
    refine (query.perm_rank _).trans (.of_eq ?_)
    rw [List.filter_map, List.map_map]
    rfl

/-- What asks for nothing that is in a row. -/
def Matcher.nothing : Matcher where
  finds _ := false
  rank _ := []
  perm_rank _ := by simp

/-- What a request asks. -/
def Request.matcher : Request → Matcher
  | .query q => q.matcher
  | .special => .nothing

/-- The engine that reads the language of queries. -/
def Engine.standard : Engine where
  matcher? text := (Request.ofText? text).map Request.matcher

end Ripple.FullText
