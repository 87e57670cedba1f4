import ContentSearch.History.Recorder
import ContentSearch.Query.Parser
import ContentSearch.Search.Ranking

/-!
Search engines: a collection with its index, and the history of the queries that were typed.
-/

namespace ContentSearch

/-- A search engine for items of a type `ι`, with scores in `α` and a history in a store `σ`. -/
structure Engine (ι α σ : Type) where
  config : Config α
  items : List ι
  index : Index α
  recorder : Option (Recorder σ)

namespace Engine

variable {ι α σ : Type} [Searchable ι] [Scalar α] [PatternCompiler]

def build (items : List ι) (c : Config α) : Except (ConfigError α) (Engine ι α σ) :=
  (Index.build items c).map fun x => ⟨c, items, x, none⟩

def withHistory (e : Engine ι α σ) (store : σ) : Engine ι α σ :=
  { e with recorder := some (.ofHistory (.ofConfig e.config) store) }

def rebuild (e : Engine ι α σ) (items : List ι) : Except (ConfigError α) (Engine ι α σ) :=
  (Index.build items e.config).map fun x => { e with items, index := x }

def size (e : Engine ι α σ) : Nat := e.items.length

def searchParsed (e : Engine ι α σ) (q : Query) : Except Fault (List (Hit ι α)) :=
  ContentSearch.search e.items e.index q e.config

/-- The hits of a query that is typed now, and the engine that has queued it for the history. A
query that asks for nothing finds nothing and is not recorded. -/
def search (e : Engine ι α σ) (now : Int) (text : Text) :
    Except Fault (List (Hit ι α) × Engine ι α σ) := do
  let q := Query.parse text
  if q.isEmpty then return ([], e)
  let hits ← e.searchParsed q
  let recorder := e.recorder.map fun r => r.saveInBackground now text hits.length
  return (hits, { e with recorder })

def flush [Store σ] (e : Engine ι α σ) : Engine ι α σ :=
  { e with recorder := e.recorder.map Recorder.flush }

def onHistory (e : Engine ι α σ) (f : History → σ → σ) : Engine ι α σ :=
  { e with recorder := e.recorder.map fun r => r.onStore f }

/-- The most recent queries, at most `limit`, after all queued ones have been recorded; none
without a history. -/
def recent [Store σ] (e : Engine ι α σ) (limit : Nat) : List HistoryEntry × Engine ι α σ :=
  let e := e.flush
  match e.recorder with
  | none => ([], e)
  | some r =>
    let (l, store) := r.history.load r.store limit
    (l, { e with recorder := some { r with store } })

end Engine
end ContentSearch
