import ContentSearch.CommandLine.Grammar
import ContentSearch.CommandLine.Options
import ContentSearch.Config.FieldSpec

/-!
The arguments of the program. Options that concern the output come before the name of the command,
those of the command after it. An option is given at most once, unless it is one that adds up.

* `Request.read`: what a list of arguments asks for.
-/

namespace ContentSearch.CommandLine

/-- What arguments ask for. -/
inductive Request where
  | run (options : Options)
  | help
  | version
  /-- The arguments do not make sense. -/
  | refused

/-! ## values -/

/-- The value that one of several names stands for. -/
def oneOf {β : Type} (choices : List (String × β)) (t : Text) : Option β :=
  (choices.find? fun c => c.1.toList = t).map (·.2)

/-- The path that a text names; no path is empty. -/
def readPath? (t : Text) : Option Text := if t.isEmpty then none else some t

/-- An option with a value that is given at most once. -/
def once {s β : Type} (current : s → Option β) (read : Text → Option β) (put : s → β → s) :
    OptionAction s :=
  .value fun t state => if (current state).isSome then none else (read t).map (put state)

/-- A flag that is given at most once. -/
def onceFlag {s : Type} (current : s → Bool) (put : s → s) : OptionAction s :=
  .flag fun state => if current state then none else some (put state)

def helpOption {s : Type} : OptionSpec s := ⟨"help", some 'h', .help⟩

def noPositional {s : Type} (_ : Text) (_ : s) : Option s := none

/-- What a command asks for whose arguments do not end in a subcommand. -/
def Reading.request {s : Type} (finish : s → Option Request) : Reading s → Request
  | .done state => (finish state).getD .refused
  | .help => .help
  | .version => .version
  | _ => .refused

/-! ## output -/

/-- The output options as they have been read so far. -/
structure OutputDraft where
  verbose : Nat := 0
  quiet : Bool := false
  format : Option OutputFormat := none
  pretty : Bool := false

def OutputDraft.finish (d : OutputDraft) : OutputOptions where
  verbosity := if d.quiet then 0 else max d.verbose 1
  format := d.format.getD .human
  pretty := d.pretty

/-- The arguments before the name of the command. -/
def programGrammar : Grammar OutputDraft where
  options := [
    ⟨"verbose", some 'v', .flag fun d => some { d with verbose := d.verbose + 1 }⟩,
    ⟨"quiet", some 'q', onceFlag (·.quiet) fun d => { d with quiet := true }⟩,
    ⟨"format", some 'f', once (·.format) (oneOf [("human", .human), ("json", .json)])
      fun d f => { d with format := some f }⟩,
    ⟨"pretty", none, onceFlag (·.pretty) fun d => { d with pretty := true }⟩,
    helpOption,
    ⟨"version", some 'V', .version⟩]
  positional := noPositional
  subcommands := ["search", "parse", "highlight", "history", "help"]

/-! ## search -/

structure SearchDraft where
  itemsFile : Option Text := none
  query : Option Text := none
  kind : Option ItemKind := none
  fields : List (ScoredField Float32) := []
  filterFields : List Text := []
  threshold : Option Float32 := none
  limit : Option Nat := none
  historyFolder : Option Text := none
  historyKey : Option Text := none

def SearchDraft.finish (d : SearchDraft) : Option Command := do
  return .search {
    itemsFile := ← d.itemsFile
    query := ← d.query
    kind := d.kind.getD .json
    fields := d.fields
    filterFields := d.filterFields
    threshold := d.threshold
    limit := d.limit.getD 10
    historyFolder := d.historyFolder
    historyKey := d.historyKey }

def searchGrammar : Grammar SearchDraft where
  options := [
    ⟨"kind", some 'k',
      once (·.kind)
        (oneOf [("blog", .blog), ("activity", .activity), ("project", .project), ("json", .json)])
        fun d k => { d with kind := some k }⟩,
    ⟨"field", none, .value fun t d =>
      (FieldSpec.read t).toOption.map fun f => { d with fields := d.fields ++ [f] }⟩,
    ⟨"filter-field", none, .value fun t d =>
      some { d with filterFields := d.filterFields ++ [t] }⟩,
    ⟨"threshold", some 't', once (·.threshold) readSingle?
      fun d x => { d with threshold := some x }⟩,
    ⟨"limit", some 'l', once (·.limit) readSize? fun d n => { d with limit := some n }⟩,
    ⟨"history-dir", none, once (·.historyFolder) readPath?
      fun d p => { d with historyFolder := some p }⟩,
    ⟨"key", none, once (·.historyKey) some fun d k => { d with historyKey := some k }⟩,
    helpOption]
  positional t d :=
    if d.itemsFile.isNone then (readPath? t).map fun p => { d with itemsFile := some p }
    else if d.query.isNone then some { d with query := some t }
    else none
  subcommands := []

/-! ## parse and highlight -/

def parseGrammar : Grammar (Option Text) where
  options := [helpOption]
  positional t d := if d.isNone then some (some t) else none
  subcommands := []

structure HighlightDraft where
  text : Option Text := none
  query : Option Text := none
  excerpt : Option Nat := none

def HighlightDraft.finish (d : HighlightDraft) : Option Command := do
  return .highlight (← d.text) (← d.query) d.excerpt

def highlightGrammar : Grammar HighlightDraft where
  options := [
    ⟨"excerpt", some 'e', once (·.excerpt) readSize? fun d n => { d with excerpt := some n }⟩,
    helpOption]
  positional t d :=
    if d.text.isNone then some { d with text := some t }
    else if d.query.isNone then some { d with query := some t }
    else none
  subcommands := []

/-! ## history -/

/-- The options that choose a history. They may stand before or after the name of the action. -/
structure PlaceDraft where
  folder : Option Text := none
  key : Option Text := none
  maxItems : Option Nat := none

/-- The options of two places, those of the second where both have one. -/
def PlaceDraft.orElse (second first : PlaceDraft) : PlaceDraft where
  folder := second.folder.or first.folder
  key := second.key.or first.key
  maxItems := second.maxItems.or first.maxItems

def PlaceDraft.finish (d : PlaceDraft) (action : HistoryAction) : Command :=
  .history {
    folder := d.folder.getD ['.']
    key := d.key.getD (Config.defaultHistoryKey)
    maxItems := d.maxItems.getD (Config.defaultMaxHistoryItems)
    action }

/-- The options that choose a history, as a part of what a command has read. -/
def placeOptions {s : Type} (place : s → PlaceDraft) (put : s → PlaceDraft → s) :
    List (OptionSpec s) := [
  ⟨"history-dir", none, once (fun d => (place d).folder) readPath?
    fun d p => put d { place d with folder := some p }⟩,
  ⟨"key", none, once (fun d => (place d).key) some
    fun d k => put d { place d with key := some k }⟩,
  ⟨"max-items", none, once (fun d => (place d).maxItems) readSize?
    fun d n => put d { place d with maxItems := some n }⟩]

def historyGrammar : Grammar PlaceDraft where
  options := placeOptions id (fun _ p => p) ++ [helpOption]
  positional := noPositional
  subcommands := ["list", "clear", "remove", "help"]

structure ListDraft where
  place : PlaceDraft := {}
  limit : Option Nat := none

def listGrammar : Grammar ListDraft where
  options :=
    ⟨"limit", some 'l', once (·.limit) readSize? fun d n => { d with limit := some n }⟩ ::
      placeOptions (·.place) (fun d p => { d with place := p }) ++ [helpOption]
  positional := noPositional
  subcommands := []

def clearGrammar : Grammar PlaceDraft := { historyGrammar with subcommands := [] }

structure RemoveDraft where
  place : PlaceDraft := {}
  query : Option Text := none

def removeGrammar : Grammar RemoveDraft where
  options := placeOptions (·.place) (fun d p => { d with place := p }) ++ [helpOption]
  positional t d := if d.query.isNone then some { d with query := some t } else none
  subcommands := []

/-! ## the whole -/

def isHistoryTopic : List Text → Bool
  | [] => true
  | [name] => historyGrammar.subcommands.any fun s => s.toList = name
  | _ => false

/-- Whether a list of names leads to a command that help can be asked for. -/
def isTopic : List Text → Bool
  | [] => true
  | name :: rest =>
    if name = "history".toList then isHistoryTopic rest
    else rest.isEmpty && programGrammar.subcommands.any fun s => s.toList = name

/-- What asking for help on a topic comes to. -/
def helpOn (known : Bool) : Request := if known then .help else .refused

/-- A request after a value that was accepted or not. Only help is given regardless. -/
def Request.provided (accepted : Bool) (r : Request) : Request :=
  if accepted then r
  else match r with
    | .help => .help
    | _ => .refused

def readAction (output : OutputOptions) (first : PlaceDraft) (name : Text) (args : List Text) :
    Request :=
  let finish (place : PlaceDraft) (action : HistoryAction) : Request :=
    .run ⟨output, (place.orElse first).finish action⟩
  match String.ofList name with
  | "list" => (listGrammar.read (some {}) args).request fun d =>
    some (finish d.place (.list (d.limit.getD 10)))
  | "clear" => (clearGrammar.read (some {}) args).request fun d => some (finish d .clear)
  | "remove" => (removeGrammar.read (some {}) args).request fun d =>
    d.query.map fun q => finish d.place (.remove q)
  | "help" => helpOn (isHistoryTopic args)
  | _ => .refused

def readHistory (output : OutputOptions) (args : List Text) : Request :=
  match historyGrammar.read (some {}) args with
  | .subcommand name rest state =>
    (readAction output (state.getD {}) name rest).provided state.isSome
  | .help => .help
  | _ => .refused

def readCommand (output : OutputOptions) (name : Text) (args : List Text) : Request :=
  let run (c : Option Command) : Option Request := c.map fun c => .run ⟨output, c⟩
  match String.ofList name with
  | "search" => (searchGrammar.read (some {}) args).request fun d => run d.finish
  | "parse" => (parseGrammar.read (some none) args).request fun d => run (d.map .parse)
  | "highlight" => (highlightGrammar.read (some {}) args).request fun d => run d.finish
  | "history" => readHistory output args
  | "help" => helpOn (isTopic args)
  | _ => .refused

def Request.read (args : List Text) : Request :=
  match programGrammar.read (some {}) args with
  | .subcommand name rest state =>
    (readCommand (state.getD {}).finish name rest).provided state.isSome
  | .help => .help
  | .version => .version
  | _ => .refused

end ContentSearch.CommandLine
