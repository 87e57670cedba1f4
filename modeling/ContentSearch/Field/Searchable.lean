import ContentSearch.Dictionary
import ContentSearch.Field.Value

/-!
Items are anything with named attributes. JSON objects have their members as attributes, and
dictionaries their entries.
-/

namespace ContentSearch

/-- A type of items: `attribute?` gives the value of a named attribute, if the item has it. -/
class Searchable (ι : Type) where
  attribute? : ι → Text → Option FieldValue

export Searchable (attribute?)

/-- The member of a JSON object with a name; other values have none. -/
def Json.member? (j : Json) (name : Text) : Option Json :=
  match j with
  | .object members => (members.find? fun m => m.1 = name).map (·.2)
  | _ => none

instance : Searchable Json where
  attribute? j name := (j.member? name).map FieldValue.ofJson

instance : Searchable (Dictionary FieldValue) where
  attribute? d name := d.find? name

def FieldValue.ofOption {α : Type} (f : α → FieldValue) : Option α → FieldValue
  | none => .null
  | some a => f a

end ContentSearch
