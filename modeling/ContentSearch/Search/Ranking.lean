import ContentSearch.Search.Score
import ContentSearch.Search.Selection

/-!
Searches: the items of a collection that a query keeps, ranked by score. Items of equal score stay
in the order of the collection. A query that only filters ranks all items alike.
-/

namespace ContentSearch

/-- An item that was found. -/
structure Hit (ι α : Type) where
  item : ι
  /-- The position of the item in the collection. -/
  position : Nat
  score : α
  /-- The fields that contribute to the score, in their order. -/
  matched : List FieldMatch
  /-- The terms and phrases of the query that were found. -/
  matchedTerms : List Text

namespace Hit

variable {ι α : Type}

/-- How the match in a named field is shown, if that field contributes. -/
def match? (h : Hit ι α) (field : Text) : Option FieldMatch :=
  h.matched.find? fun m => m.field = field

/-- Whether a hit may come before another: its score is no lower. -/
def ranksBefore [Scalar α] (a b : Hit ι α) : Bool := decide (b.score ≤ a.score)

/-- The item at a position as a hit of a query that only filters. -/
def unscored [Scalar α] (items : List ι) (position : Nat) : Except Fault (Hit ι α) := do
  return ⟨← itemAt items position, position, Scalar.ofNat 1, [], []⟩

def scored? [Scalar α] (items : List ι) (entries : List IndexedItem) (s : Scorer α)
    (position : Nat) : Except Fault (Option (Hit ι α)) := do
  match ← s.score (← itemAt entries position) with
  | none => return none
  | some r => return some ⟨← itemAt items position, position, r.score, r.matched, r.matchedTerms⟩

end Hit

/-- The list cut off after a greatest number of items, if there is one. -/
def takeAtMost {β : Type} (limit : Option Nat) (l : List β) : List β :=
  match limit with
  | some n => l.take n
  | none => l

/-- The hits of a query in a collection with its index, best first. A filter on an unknown
attribute lets nothing pass. If the index has more or fewer items than the collection, only the
items that both have are searched. -/
def search {ι α : Type} [PatternCompiler] [Scalar α] (items : List ι) (x : Index α) (q : Query)
    (c : Config α) : Except Fault (List (Hit ι α)) :=
  match x.resolveFilters? q with
  | none => .ok []
  | some filters => do
    let candidates := x.candidates items.length filters q
    let hits ←
      if q.filterOnly then candidates.mapM (Hit.unscored items)
      else do
        let hits ← candidates.mapM (Hit.scored? items x.items (.ofQuery x q c))
        pure ((hits.filterMap id).mergeSort Hit.ranksBefore)
    return takeAtMost c.maxResults hits

end ContentSearch
