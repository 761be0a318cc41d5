import Ripple.FullText.Match

/-!
# Ranking

The matches of a query come in the order of their scores, the least score first; of
equal scores the one that comes first stays first. A score is the negative sum, over the
phrases of the query, of a weight that grows with the rarity of the phrase and with the
share of the document that it makes up.
-/

namespace Ripple.FullText

/-- How soon further hits of a phrase stop to count. -/
def saturation : Float := 1.2

/-- How much the length of a document counts. -/
def lengthWeight : Float := 0.75

/-- The weight of a phrase that stands in so many of all documents. -/
def rarity (documents hits : Nat) : Float :=
  let weight := Float.log ((documents.toFloat - hits.toFloat + 0.5) / (hits.toFloat + 0.5))
  if weight <= 0.0 then 1.0e-6 else weight

/-- The average size of some documents. -/
def averageSize (documents : List Document) : Float :=
  (documents.foldl (fun total d => total + d.size) 0 : Nat).toFloat / documents.length.toFloat

/-- For each phrase of a query its weight among some documents. -/
def Query.weights (query : Query) (documents : List Document) : List Float :=
  query.leaves.flatMap fun leaf => leaf.phrases.map fun phrase =>
    rarity documents.length
      (documents.countP fun d => !(phrase.positions leaf.columns d).isEmpty)

/-- The score of a document of a size in which the phrases have some hits. -/
def score (weights : List Float) (average : Float) (size : Nat) (hits : List Nat) : Float :=
  let share := saturation * (1.0 - lengthWeight + lengthWeight * size.toFloat / average)
  let sum := (weights.zip hits).foldl (fun sum (weight, count) =>
    sum + weight * ((count.toFloat * (saturation + 1.0)) / (count.toFloat + share))) 0.0
  sum * -1.0

/-- The matches of a query among some things with their documents, in the order of
    their scores. -/
def Query.rank {α : Type} (query : Query) (things : List (α × Document)) : List α :=
  let documents := things.map Prod.snd
  let weights := query.weights documents
  let average := averageSize documents
  let scored := things.filterMap fun (thing, d) =>
    (query.hits? d).map fun hits => (thing, score weights average d.size hits)
  (scored.mergeSort fun a b => a.2 <= b.2).map Prod.fst

end Ripple.FullText
