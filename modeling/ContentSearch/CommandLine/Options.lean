import ContentSearch.Config.Basic

/-!
What the program can be asked to do.
-/

namespace ContentSearch.CommandLine

/-- How results are written. -/
inductive OutputFormat where
  | human
  | json
  deriving Repr, DecidableEq

/-- What the items of a file are. -/
inductive ItemKind where
  | blog
  | activity
  | project
  | json
  deriving Repr, DecidableEq

/-- A search in a file of items. -/
structure SearchOptions where
  itemsFile : Text
  query : Text
  kind : ItemKind
  /-- The scored fields that replace those of the kind. -/
  fields : List (ScoredField Float32)
  /-- The attributes that can be filtered on besides those of the kind. -/
  filterFields : List Text
  threshold : Option Float32
  /-- The greatest number of results. -/
  limit : Nat
  /-- The folder of the history in which the query is recorded. -/
  historyFolder : Option Text
  /-- The key of that history, if it is not that of the kind. -/
  historyKey : Option Text

/-- What is done with a history. -/
inductive HistoryAction where
  | list (limit : Nat)
  | clear
  | remove (query : Text)
  deriving Repr, DecidableEq

def HistoryAction.name : HistoryAction → Text
  | .list _ => "list".toList
  | .clear => "clear".toList
  | .remove _ => "remove".toList

structure HistoryOptions where
  folder : Text
  key : Text
  maxItems : Nat
  action : HistoryAction
  deriving Repr, DecidableEq

inductive Command where
  | search (options : SearchOptions)
  | parse (query : Text)
  /-- Highlights a query in a text, with an excerpt of at most a number of characters. -/
  | highlight (text query : Text) (excerpt : Option Nat)
  | history (options : HistoryOptions)

/-- How much and in which form is written. -/
structure OutputOptions where
  verbosity : Nat
  format : OutputFormat
  /-- Whether JSON is written over several lines. -/
  pretty : Bool
  deriving Repr, DecidableEq

/-- What the program is asked to do. -/
structure Options where
  output : OutputOptions
  command : Command

end ContentSearch.CommandLine
