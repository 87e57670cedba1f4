import ContentSearch.Dictionary
import ContentSearch.Json.Decode

/-!
Search queries: fuzzy terms, exact phrases, exclusions, and filters on the values of attributes.
-/

namespace ContentSearch

/-- A search query. A query that is read from text holds lowercase texts without repetition. -/
structure Query where
  terms : List Text
  phrases : List Text
  exclusions : List Text
  /-- The values that an item may have in each attribute. -/
  filters : Dictionary (List Text)
  /-- Whether the query has neither terms nor phrases, so that every item it keeps counts alike. -/
  filterOnly : Bool
  deriving DecidableEq, Repr

namespace Query

def empty : Query := ⟨[], [], [], .empty, true⟩

def isEmpty (q : Query) : Bool :=
  q.terms.isEmpty && q.phrases.isEmpty && q.exclusions.isEmpty && q.filters.isEmpty

def hasText (q : Query) : Bool := !q.filterOnly

def componentCount (q : Query) : Nat := q.terms.length + q.phrases.length

def toJson (q : Query) : Json :=
  .object [
    ("terms".toList, .strings q.terms),
    ("phrases".toList, .strings q.phrases),
    ("excludeTerms".toList, .strings q.exclusions),
    ("filters".toList, .object (q.filters.toList.map fun (k, vs) => (k, .strings vs))),
    ("isFilterOnly".toList, .bool q.filterOnly)]

def ofTree? (t : JsonTree) : Option Query := do
  let texts := JsonTree.list? JsonTree.text?
  let names := ["terms", "phrases", "excludeTerms", "filters", "isFilterOnly"].map String.toList
  match ← t.fields? names with
  | [terms, phrases, exclusions, filters, filterOnly] =>
    return {
      terms := ← JsonTree.required? texts terms
      phrases := ← JsonTree.required? texts phrases
      exclusions := ← JsonTree.required? texts exclusions
      filters := ← JsonTree.required? (JsonTree.dictionary? texts) filters
      filterOnly := ← JsonTree.required? JsonTree.flag? filterOnly }
  | _ => none

end Query
end ContentSearch
