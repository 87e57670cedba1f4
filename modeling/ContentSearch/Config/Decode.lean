import ContentSearch.Config.Basic
import ContentSearch.Json.Decode

/-!
Configurations in JSON. They are taken as they are and validated where they are used.
-/

namespace ContentSearch

def ScoredField.ofTree? (t : JsonTree) : Option (ScoredField Float32) := do
  match ← t.fields? (["name", "weight", "fuzzy"].map String.toList) with
  | [name, weight, fuzzy] =>
    return {
      name := ← JsonTree.required? JsonTree.text? name
      weight := ← JsonTree.optional? JsonTree.single? 1 weight
      fuzzy := ← JsonTree.optional? JsonTree.flag? true fuzzy }
  | _ => none

def Config.ofTree? (t : JsonTree) : Option (Config Float32) := do
  let names := ["fields", "id_field", "fuzzy_threshold", "filter_fields", "excerpt_length",
    "max_results", "history_storage_key", "max_history_items"]
  match ← t.fields? (names.map String.toList) with
  | [fields, idField, threshold, filterFields, excerptLength, maxResults, key, maxItems] =>
    return {
      fields := ← JsonTree.required? (JsonTree.list? ScoredField.ofTree?) fields
      idField := ← JsonTree.required? JsonTree.text? idField
      fuzzyThreshold := ← JsonTree.required? JsonTree.single? threshold
      filterFields := ← JsonTree.optional? (JsonTree.list? JsonTree.text?) [] filterFields
      excerptLength := ← JsonTree.optional? JsonTree.natural? 200 excerptLength
      maxResults := ← JsonTree.optional? (JsonTree.nullable? JsonTree.natural?) none maxResults
      historyKey := ← JsonTree.required? JsonTree.text? key
      maxHistoryItems := ← JsonTree.required? JsonTree.natural? maxItems }
  | _ => none

end ContentSearch
