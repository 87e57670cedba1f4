import ContentSearch.Calendar.Reader
import ContentSearch.Json.Decode
import ContentSearch.Json.Printer

/-!
Values of the attributes of an item, and their texts. Every value has one text, which is what is
searched and excerpted, and a list of single values, which is what filters compare with.
-/

namespace ContentSearch

/-- The value of an attribute. -/
inductive FieldValue where
  | text (t : Text)
  | list (ts : List Text)
  | integer (n : Int)
  | float (x : Float)
  | boolean (b : Bool)
  | instant (i : Instant)
  | null

namespace FieldValue

/-- The text of a value: the items of a list with spaces between them, nothing for `null`. -/
def toText : FieldValue → Text
  | .text t => t
  | .list ts => Text.joinWith [' '] ts
  | .integer n => intText n
  | .float x => doubleText x
  | .boolean b => (if b then "true" else "false").toList
  | .instant i => i.text
  | .null => []

/-- The single values that a filter compares with: the items of a list, nothing for `null`, the
text of any other value. -/
def values : FieldValue → List Text
  | .list ts => ts
  | .null => []
  | v => [v.toText]

def isEmpty : FieldValue → Bool
  | .text t => t.isEmpty
  | .list ts => ts.all List.isEmpty
  | .null => true
  | _ => false

def asText? : FieldValue → Option Text
  | .text t => some t
  | _ => none

def asList? : FieldValue → Option (List Text)
  | .list ts => some ts
  | _ => none

mutual

/-- The value of an attribute that is given as JSON. An object counts as its text; so does each
item of an array, save that strings stay as they are. -/
def ofJson : Json → FieldValue
  | .null => .null
  | .bool b => .boolean b
  | .number (.integer n) => if n < signedBound then .integer n else .float (JsonTree.doubleOfInt n)
  | .number (.double x) => .float x
  | .number (.single x) => .float x.toFloat
  | .string s => .text s
  | .array items => .list (itemTexts items)
  | .object members => .text (Json.object members).compact

def itemTexts : List Json → List Text
  | [] => []
  | j :: r => (ofJson j).toText :: itemTexts r

end

/-- The value that is written with the name of its kind, as `{"Text": "…"}`. -/
def ofTagged? : JsonTree → Option FieldValue
  | .string s => if s = some "Null".toList then some .null else none
  | .object [(some kind, t)] =>
    match String.ofList kind with
    | "Text" => t.text?.map .text
    | "List" => (JsonTree.list? JsonTree.text? t).map .list
    | "Integer" => t.signed?.map .integer
    | "Float" => t.double?.map .float
    | "Boolean" => t.flag?.map .boolean
    | "DateTime" => (t.text?.bind Instant.read?).map .instant
    | "Null" => match t with
      | .null => some .null
      | _ => none
    | _ => none
  | _ => none

end FieldValue
end ContentSearch
