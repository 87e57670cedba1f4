import ContentSearch.Index.Basic
import ContentSearch.Query.Basic

/-!
Which items a query keeps before anything is scored: those that pass every filter, mention no
exclusion, and hold every phrase in some scored field.
-/

namespace ContentSearch

/-- A filter of a query on an attribute of the index, with the values that it lets pass. -/
structure ResolvedFilter where
  target : AttributeRef
  values : List Text
  deriving Repr, DecidableEq

def ResolvedFilter.passes (f : ResolvedFilter) (e : IndexedItem) : Bool :=
  (e.entry? f.target).any fun field => f.values.any field.hasValue

namespace Index

variable {α : Type}

/-- The filters of a query, if the index knows all their names. -/
def resolveFilters? (x : Index α) (q : Query) : Option (List ResolvedFilter) :=
  q.filters.toList.mapM fun (name, values) => (x.resolve? name).map (⟨·, values⟩)

/-- Whether an item passes the filters, mentions no exclusion, and holds every phrase. -/
def keeps (filters : List ResolvedFilter) (q : Query) (e : IndexedItem) : Bool :=
  filters.all (·.passes e) && !q.exclusions.any e.anyAttributeMentions &&
    q.phrases.all e.anyFieldMentions

/-- The positions, among the first `count`, of the items that are kept. -/
def candidates (x : Index α) (count : Nat) (filters : List ResolvedFilter) (q : Query) :
    List Nat :=
  ((x.items.take count).zipIdx.filter fun (e, _) => keeps filters q e).map (·.2)

end Index
end ContentSearch
