import ContentSearch.CommandLine.Arguments
import ContentSearch.CommandLine.Report
import ContentSearch.Config.Failure
import ContentSearch.Content.Activity
import ContentSearch.Content.BlogPost
import ContentSearch.Content.Project
import ContentSearch.Engine
import ContentSearch.Highlight.Compiler
import ContentSearch.Store.Opening

/-!
Running a command: what it reports, and the file system that it leaves behind.
-/

namespace ContentSearch.CommandLine

/-- The time at which a command runs, in milliseconds since 1970, and the time it is taken to
need. -/
structure Clock where
  now : Int
  elapsed : Nat

/-- What a command comes to: a report or a failure, and the files as they are afterwards. -/
abbrev Outcome := Except Failure Report × FileSystem

/-! ## search -/

def ItemKind.config : ItemKind → Config Float32
  | .blog => BlogPost.config
  | .activity => Activity.config
  | .project => Project.config
  | .json => Config.default

def SearchOptions.config (o : SearchOptions) : Except Failure (Config Float32) := do
  if o.limit = 0 then throw (.invalidArgument "--limit must be at least 1".toList)
  let c := o.kind.config
  let more := Index.newNames c.filterFields o.filterFields
  let c := { c with
    fields := if o.fields.isEmpty then c.fields else o.fields
    filterFields := c.filterFields ++ more
    fuzzyThreshold := o.threshold.getD c.fuzzyThreshold
    historyKey := o.historyKey.getD c.historyKey
    maxResults := some o.limit }
  if c.fields.isEmpty then
    throw (.configuration "No searchable fields; pass --field NAME[:WEIGHT]".toList)
  match c.validate with
  | .ok _ => return c
  | .error e => throw e.toFailure

def SearchOptions.readItems (o : SearchOptions) (fs : FileSystem) : Except Failure Text :=
  match fs.read o.itemsFile with
  | .ok t => .ok t
  | .error e => .error (.wrapped ["Failed to read ".toList ++ o.itemsFile] e.message)

section Items

variable {ι : Type} [Searchable ι]

/-- A hit as it is reported: an item without an id is known by its position. -/
def hitReport (idField : Text) (h : Hit ι Float32) : HitReport where
  position := h.position
  id := (((attribute? h.item idField).map FieldValue.toText).filter fun t => !t.isEmpty).getD
    (natText h.position)
  score := h.score
  matched := h.matched
  matchedTerms := h.matchedTerms

def SearchOptions.report (o : SearchOptions) (clock : Clock) (c : Config Float32)
    (hits : List (Hit ι Float32)) : Report :=
  .search o.query (Query.parse o.query) clock.elapsed (hits.map (hitReport c.idField))

/-- Searches a list of items, and records the query if the options name a history. -/
def SearchOptions.searchItems (o : SearchOptions) (clock : Clock) (fs : FileSystem)
    (c : Config Float32) (items : List ι) : Except Fault Outcome :=
  match Engine.build items c with
  | .error e => .ok (.error e.toFailure, fs)
  | .ok (engine : Engine ι Float32 FolderStore) =>
    match o.historyFolder with
    | none => do
      let (hits, _) ← engine.search clock.now o.query
      return (.ok (o.report clock c hits), fs)
    | some folder =>
      match FolderStore.openAt fs folder with
      | .error e => .ok (.error e, fs)
      | .ok (store, fs) => do
        let (hits, engine) ← (engine.withHistory store).search clock.now o.query
        let fs := match engine.flush.recorder with
          | some r => fs.place folder (.folder r.store.folder)
          | none => fs
        return (.ok (o.report clock c hits), fs)

/-- Searches the items that a text holds, if it holds a list of items. -/
def SearchOptions.searchText (o : SearchOptions) (clock : Clock) (fs : FileSystem)
    (c : Config Float32) (items : Option (List ι)) : Except Fault Outcome :=
  match items with
  | some items => o.searchItems clock fs c items
  | none =>
    let context := "Invalid items in ".toList ++ o.itemsFile
    .ok (.error (.wrapped [context] "not a list of items".toList), fs)

end Items

/-- The items in a text, each read by `item?`. -/
def itemsOf? {ι : Type} (item? : JsonTree → Option ι) (t : Text) : Option (List ι) :=
  (JsonTree.read? t).bind (JsonTree.list? item?)

def valuesOf? (t : Text) : Option (List Json) :=
  match Json.read? t with
  | some (.array items) => some items
  | _ => none

/-- Searches the file of items. The file is read first, and then the options are checked. -/
def SearchOptions.run (o : SearchOptions) (clock : Clock) (fs : FileSystem) :
    Except Fault Outcome :=
  match o.readItems fs, o.config with
  | .error e, _ | _, .error e => .ok (.error e, fs)
  | .ok t, .ok c =>
    match o.kind with
    | .blog => o.searchText clock fs c (itemsOf? BlogPost.ofTree? t)
    | .activity => o.searchText clock fs c (itemsOf? Activity.ofTree? t)
    | .project => o.searchText clock fs c (itemsOf? Project.ofTree? t)
    | .json => o.searchText clock fs c (valuesOf? t)

/-! ## history -/

def HistoryAction.apply {σ : Type} [Store σ] (h : History) (store : σ) :
    HistoryAction → List HistoryEntry × σ
  | .list limit => h.load store limit
  | .clear => h.load (h.clear store) h.maxItems
  | .remove query => h.load (h.remove store query) h.maxItems

def HistoryOptions.run (o : HistoryOptions) (fs : FileSystem) : Outcome :=
  if o.maxItems = 0 then
    (.error (.invalidArgument "--max-items must be at least 1".toList), fs)
  else
    match FolderStore.openAt fs o.folder with
    | .error e => (.error e, fs)
    | .ok (store, fs) =>
      let (entries, store) := o.action.apply (.ofKey o.key o.maxItems) store
      (.ok (.history o.key o.action entries), fs.place o.folder (.folder store.folder))

/-! ## all commands -/

def Command.run (clock : Clock) (fs : FileSystem) : Command → Except Fault Outcome
  | .search o => o.run clock fs
  | .parse query => .ok (.ok (.parse (Query.parse query)), fs)
  | .highlight text query excerpt => do
    let p := Pattern.ofQuery (Query.parse query)
    let segments ← p.highlight text
    let excerpt ← excerpt.mapM fun n => Excerpt.around p text n
    return (.ok (.highlight segments excerpt), fs)
  | .history o => .ok (o.run fs)

def Command.summary : Command → Text
  | .search o => "Searched ".toList ++ o.itemsFile ++ " for ".toList ++ quoted o.query
  | .parse query => "Parsed ".toList ++ quoted query
  | .highlight _ query _ => "Highlighted ".toList ++ quoted query
  | .history o => "History ".toList ++ quoted o.key ++ " in ".toList ++ o.folder

/-- How a run of the program ends. -/
inductive Ending where
  /-- The program has written `output`. -/
  | success (output : Text)
  | failure (f : Failure)
  | help
  | refused

def versionText : Text := "sitesearch 0.1.0\n".toList

/-- Runs the program with a list of arguments: how it ends, and the files as they are
afterwards. -/
def run (clock : Clock) (fs : FileSystem) (args : List Text) :
    Except Fault (Ending × FileSystem) :=
  match Request.read args with
  | .help => .ok (.help, fs)
  | .refused => .ok (.refused, fs)
  | .version => .ok (.success versionText, fs)
  | .run o => do
    match ← o.command.run clock fs with
    | (.ok report, fs) => return (.success (← report.render o.output o.command.summary), fs)
    | (.error f, fs) => return (.failure f, fs)

end ContentSearch.CommandLine
