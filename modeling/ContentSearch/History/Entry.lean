import ContentSearch.Json.Decode
import ContentSearch.Json.Printer
import ContentSearch.Text.Case
import ContentSearch.Text.Whitespace

/-!
Entries of the search history, and the text in which a list of them is stored.
-/

namespace ContentSearch

/-- A query that was submitted. -/
structure HistoryEntry where
  query : Text
  /-- When it was submitted, in milliseconds since 1970. -/
  timestamp : Int
  /-- The number of items that it found. -/
  resultCount : Nat
  deriving Repr, DecidableEq

namespace HistoryEntry

/-- The entry of a query, trimmed, unless the query is blank. -/
def ofQuery? (now : Int) (query : Text) (resultCount : Nat) : Option HistoryEntry :=
  let query := Text.trim query
  if query.isEmpty then none else some ⟨query, now, resultCount⟩

/-- The query in lowercase. Of entries that agree in it a history keeps one. -/
def folded (e : HistoryEntry) : Text := Text.lowercase e.query

def ofTree? (t : JsonTree) : Option HistoryEntry := do
  match ← t.fields? (["query", "timestamp", "resultCount"].map String.toList) with
  | [query, timestamp, resultCount] =>
    return {
      query := ← JsonTree.required? JsonTree.text? query
      timestamp := ← JsonTree.required? JsonTree.signed? timestamp
      resultCount := ← JsonTree.required? JsonTree.natural? resultCount }
  | _ => none

def toJson (e : HistoryEntry) : Json :=
  .object [
    ("query".toList, .string e.query),
    ("timestamp".toList, .int e.timestamp),
    ("resultCount".toList, .nat e.resultCount)]

def encode (l : List HistoryEntry) : Text := (Json.array (l.map toJson)).compact

def decode? (t : Text) : Option (List HistoryEntry) :=
  (JsonTree.read? t).bind (JsonTree.list? ofTree?)

end HistoryEntry
end ContentSearch
