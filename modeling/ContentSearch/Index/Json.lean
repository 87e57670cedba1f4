import ContentSearch.Config.Decode
import ContentSearch.Index.Basic

/-!
Indexes in JSON. An index is taken as it is; nothing requires that its entries belong together.
-/

namespace ContentSearch

namespace IndexedField

def ofTree? (t : JsonTree) : Option IndexedField := do
  let texts := JsonTree.list? JsonTree.text?
  match ← t.fields? (["text", "lower", "words", "values"].map String.toList) with
  | [text, lower, words, values] =>
    return {
      text := ← JsonTree.required? JsonTree.text? text
      lower := ← JsonTree.required? JsonTree.text? lower
      words := ← JsonTree.required? texts words
      values := ← JsonTree.required? texts values }
  | _ => none

def toJson (f : IndexedField) : Json :=
  .object [
    ("text".toList, .string f.text),
    ("lower".toList, .string f.lower),
    ("words".toList, .strings f.words),
    ("values".toList, .strings f.values)]

end IndexedField

namespace IndexedItem

def ofTree? (t : JsonTree) : Option IndexedItem := do
  let entries := JsonTree.list? IndexedField.ofTree?
  match ← t.fields? (["id", "fields", "filter_values"].map String.toList) with
  | [id, fields, filterFields] =>
    return {
      id := ← JsonTree.optional? (JsonTree.nullable? JsonTree.text?) none id
      fields := ← JsonTree.required? entries fields
      filterFields := ← JsonTree.required? entries filterFields }
  | _ => none

def toJson (e : IndexedItem) : Json :=
  .object [
    ("id".toList, .ofOption (e.id.map .string)),
    ("fields".toList, .array (e.fields.map IndexedField.toJson)),
    ("filter_values".toList, .array (e.filterFields.map IndexedField.toJson))]

end IndexedItem

def ScoredField.toJson (f : ScoredField Float32) : Json :=
  .object [
    ("name".toList, .string f.name),
    ("weight".toList, .number (.single f.weight)),
    ("fuzzy".toList, .bool f.fuzzy)]

namespace Index

def ofTree? (t : JsonTree) : Option (Index Float32) := do
  match ← t.fields? (["fields", "filter_fields", "items"].map String.toList) with
  | [fields, filterFields, items] =>
    return {
      fields := ← JsonTree.required? (JsonTree.list? ScoredField.ofTree?) fields
      filterFields := ← JsonTree.required? (JsonTree.list? JsonTree.text?) filterFields
      items := ← JsonTree.required? (JsonTree.list? IndexedItem.ofTree?) items }
  | _ => none

def toJson (x : Index Float32) : Json :=
  .object [
    ("fields".toList, .array (x.fields.map ScoredField.toJson)),
    ("filter_fields".toList, .strings x.filterFields),
    ("items".toList, .array (x.items.map IndexedItem.toJson))]

end Index
end ContentSearch
