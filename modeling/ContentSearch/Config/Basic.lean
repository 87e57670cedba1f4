import ContentSearch.Number.Scalar
import ContentSearch.Text.Whitespace

/-!
The configuration of a search: which attributes of an item are scored and with what weight, which
are only filtered on, and how tolerant, how long and how many the results are.

* `Config.validate`: a configuration is accepted when its scored fields are, its threshold lies in
  `[0, 1]`, and its id field, history key, history capacity and excerpt length are not empty;
* `Config.distinctFields`: the scored fields with identical repetitions left out.
-/

namespace ContentSearch

structure ScoredField (α : Type) where
  name : Text
  /-- The importance of the attribute relative to the others. -/
  weight : α
  /-- Whether words that differ from a term in spelling may match. -/
  fuzzy : Bool
  deriving Repr, BEq, DecidableEq

/-- A scored field with weight 1 that is matched with tolerance. -/
def ScoredField.ofName {α : Type} [Scalar α] (name : Text) : ScoredField α :=
  ⟨name, Scalar.ofNat 1, true⟩

/-- The configuration of a search. -/
structure Config (α : Type) where
  fields : List (ScoredField α)
  /-- The attribute that identifies an item. -/
  idField : Text
  /-- The greatest distance at which a term matches. -/
  fuzzyThreshold : α
  /-- The attributes that are only filtered on. -/
  filterFields : List Text
  /-- The number of characters of an excerpt. -/
  excerptLength : Nat
  /-- The greatest number of results, if it is bounded. -/
  maxResults : Option Nat
  historyKey : Text
  /-- The number of queries that the history keeps. -/
  maxHistoryItems : Nat
  deriving Repr

/-- What is wrong with a configuration. -/
inductive ConfigError (α : Type) where
  | noFields
  | emptyFieldName
  | badWeight (name : Text) (weight : α)
  | conflictingFields (name : Text)
  | badThreshold (threshold : α)
  | emptyIdField
  | emptyHistoryKey
  | noHistoryCapacity
  | emptyExcerpt
  deriving Repr, DecidableEq

/-- What is wrong, in words; `number` writes a number. -/
def ConfigError.message {α : Type} (number : α → Text) : ConfigError α → Text
  | .noFields => "at least one searchable field is required".toList
  | .emptyFieldName => "field name must not be empty".toList
  | .badWeight name weight =>
    "field '".toList ++ name ++ "' must have a positive weight, got ".toList ++ number weight
  | .conflictingFields name =>
    "field '".toList ++ name ++ "' declared twice with conflicting settings".toList
  | .badThreshold threshold =>
    "fuzzy threshold must be within [0, 1], got ".toList ++ number threshold
  | .emptyIdField => "id field must not be empty".toList
  | .emptyHistoryKey => "history storage key must not be empty".toList
  | .noHistoryCapacity => "max history items must be at least 1".toList
  | .emptyExcerpt => "excerpt length must be at least 1".toList

namespace Config

variable {α : Type} [Scalar α]

def defaultHistoryKey : Text := "search-history".toList

def defaultMaxHistoryItems : Nat := 10

/-- The configuration that others start from; it has no fields yet. -/
def default : Config α where
  fields := []
  idField := "id".toList
  fuzzyThreshold := Scalar.ofNat 1 / Scalar.ofNat 5
  filterFields := []
  excerptLength := 200
  maxResults := none
  historyKey := defaultHistoryKey
  maxHistoryItems := defaultMaxHistoryItems

def field? (c : Config α) (name : Text) : Option (ScoredField α) :=
  c.fields.find? fun f => f.name = name

def weightOf (fields : List (ScoredField α)) : α := Scalar.sum (fields.map (·.weight))

def totalWeight (c : Config α) : α := weightOf c.fields

/-- The fields that `seen` and a further list declare, in the order of their first declarations.
A name may be declared again only in the same way, and every weight is a positive number. -/
def distinctAfter (seen : List (ScoredField α)) :
    List (ScoredField α) → Except (ConfigError α) (List (ScoredField α))
  | [] => .ok seen
  | f :: rest =>
    if f.name.isEmpty then .error .emptyFieldName
    else if !Scalar.isFinite f.weight || decide (f.weight ≤ Scalar.ofNat 0) then
      .error (.badWeight f.name f.weight)
    else
      match seen.find? fun g => g.name = f.name with
      | some g => if g == f then distinctAfter seen rest else .error (.conflictingFields f.name)
      | none => distinctAfter (seen ++ [f]) rest

/-- The scored fields with identical repetitions left out. -/
def distinctFields (c : Config α) : Except (ConfigError α) (List (ScoredField α)) :=
  if c.fields.isEmpty then .error .noFields else distinctAfter [] c.fields

/-- Whether the configuration can be used, and otherwise the first thing that is wrong. -/
def validate (c : Config α) : Except (ConfigError α) Unit := do
  let _ ← c.distinctFields
  if ¬ (Scalar.ofNat 0 ≤ c.fuzzyThreshold ∧ c.fuzzyThreshold ≤ Scalar.ofNat 1) then
    throw (.badThreshold c.fuzzyThreshold)
  if c.idField.isEmpty then throw .emptyIdField
  if (Text.trim c.historyKey).isEmpty then throw .emptyHistoryKey
  if c.maxHistoryItems = 0 then throw .noHistoryCapacity
  if c.excerptLength = 0 then throw .emptyExcerpt

/-- The configuration with repeated fields left out, if it can be used. -/
def build (c : Config α) : Except (ConfigError α) (Config α) := do
  c.validate
  return { c with fields := ← c.distinctFields }

end Config
end ContentSearch
