import ContentSearch.Config.Basic
import ContentSearch.Index.Entry

/-!
Indexes: the entries of all items of a collection under the names of the indexed attributes.

* `Index.build`: the index of a collection, which exists whenever the configuration is accepted;
* `Index.resolve?`: the attribute that the name in a filter stands for.
-/

namespace ContentSearch

/-- Where an attribute is found in the entry of an item. -/
inductive AttributeRef where
  /-- The scored field at a position. -/
  | scored (n : Nat)
  /-- The filter field at a position. -/
  | filter (n : Nat)
  deriving Repr, DecidableEq

def IndexedItem.entry? (e : IndexedItem) : AttributeRef → Option IndexedField
  | .scored n => e.fields[n]?
  | .filter n => e.filterFields[n]?

/-- An index of a collection of items. -/
structure Index (α : Type) where
  fields : List (ScoredField α)
  filterFields : List Text
  /-- The entries of the items, in the order of the collection. -/
  items : List IndexedItem
  deriving Repr, BEq

namespace Index

variable {α : Type}

def size (x : Index α) : Nat := x.items.length

def isEmpty (x : Index α) : Bool := x.items.isEmpty

def position? (x : Index α) (id : Text) : Option Nat :=
  x.items.findIdx? fun e => e.id == some id

/-! ## names in filters -/

/-- Whether two names are equal up to the case of ASCII letters. -/
def sameName (a b : Text) : Bool := Text.asciiLowercase a == Text.asciiLowercase b

/-- The first attribute with a name, scored fields before filter fields. -/
def locate? (x : Index α) (name : Text) : Option AttributeRef :=
  ((x.fields.findIdx? fun f => sameName f.name name).map .scored).or
    ((x.filterFields.findIdx? fun f => sameName f name).map .filter)

/-- The attribute that a name in a filter stands for: the name itself, or else the name with an
`s`, so that `tag:news` filters on `tags`. -/
def resolve? (x : Index α) (name : Text) : Option AttributeRef :=
  (x.locate? name).or (x.locate? (name ++ ['s']))

variable [Scalar α]

def totalWeight (x : Index α) : α := Config.weightOf x.fields

/-! ## construction -/

/-- The names among `names` that are not in `taken`, without repetition. -/
def newNames (taken : List Text) : List Text → List Text
  | [] => []
  | n :: rest =>
    if taken.contains n then newNames taken rest else n :: newNames (n :: taken) rest

/-- The index of a collection. A name is filtered on only if it is not scored too. -/
def build {ι : Type} [Searchable ι] (items : List ι) (c : Config α) :
    Except (ConfigError α) (Index α) := do
  c.validate
  let fields ← c.distinctFields
  let names := fields.map (·.name)
  let filterFields := newNames names c.filterFields
  return ⟨fields, filterFields, items.map (IndexedItem.ofItem c.idField names filterFields)⟩

end Index
end ContentSearch
