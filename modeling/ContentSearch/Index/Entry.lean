import ContentSearch.Field.Searchable
import ContentSearch.Text.Words

/-!
Index entries: what the search has to know of one attribute of one item, and of one item.
-/

namespace ContentSearch

/-- An attribute of an item in the forms that are matched. A search may be given an index in which
the forms do not belong together. -/
structure IndexedField where
  /-- The text as it is displayed. -/
  text : Text
  /-- The text in lowercase, in which phrases and exclusions are sought. -/
  lower : Text
  /-- The lowercase words that terms are compared with. -/
  words : List Text
  /-- The single values, trimmed and in lowercase, that filters compare with. -/
  values : List Text
  deriving Repr, DecidableEq

namespace IndexedField

def empty : IndexedField := ⟨[], [], [], []⟩

def ofValue (v : FieldValue) : IndexedField :=
  let text := v.toText
  ⟨text, Text.lowercase text, Text.tokens text, v.values.map fun t => Text.lowercase (Text.trim t)⟩

def ofAttribute {ι : Type} [Searchable ι] (item : ι) (name : Text) : IndexedField :=
  ((attribute? item name).map ofValue).getD empty

def isEmpty (f : IndexedField) : Bool := f.text.isEmpty

def hasValue (f : IndexedField) (value : Text) : Bool := f.values.contains value

def mentions (f : IndexedField) (needle : Text) : Bool := Text.occursIn needle f.lower

end IndexedField

/-- An item as it is indexed. -/
structure IndexedItem where
  id : Option Text
  /-- The entries of the scored fields, in their order. -/
  fields : List IndexedField
  /-- The entries of the attributes that are only filtered on, in their order. -/
  filterFields : List IndexedField
  deriving Repr, DecidableEq

namespace IndexedItem

/-- The entry of an item, given the names of its id, of the scored fields and of the filter
fields. An id without text is none. -/
def ofItem {ι : Type} [Searchable ι] (idField : Text) (fields filterFields : List Text)
    (item : ι) : IndexedItem where
  id := ((attribute? item idField).map FieldValue.toText).filter fun t => !t.isEmpty
  fields := fields.map (IndexedField.ofAttribute item)
  filterFields := filterFields.map (IndexedField.ofAttribute item)

def anyFieldMentions (e : IndexedItem) (needle : Text) : Bool :=
  e.fields.any fun f => f.mentions needle

/-- Whether a lowercase text occurs in any indexed attribute. -/
def anyAttributeMentions (e : IndexedItem) (needle : Text) : Bool :=
  (e.fields ++ e.filterFields).any fun f => f.mentions needle

end IndexedItem
end ContentSearch
