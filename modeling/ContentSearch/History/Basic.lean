import ContentSearch.Config.Basic
import ContentSearch.History.Entry
import ContentSearch.Store.Basic

/-!
The search history: the most recent queries, newest first, no two of them equal up to case, and no
more than a given number. It is kept in a store under a key, read anew by every operation and
repaired as it is read. What goes wrong in the store is never reported: a history that cannot be
read is empty, and a change that cannot be written does not happen.
-/

namespace ContentSearch

/-- A history in a store: the key it is kept under, and the number of entries it holds. -/
structure History where
  key : Text
  maxItems : Nat
  maxItems_pos : 0 < maxItems

namespace History

/-- The history under a key, with room for at least one entry. -/
def ofKey (key : Text) (maxItems : Nat) : History := ⟨key, max maxItems 1, by omega⟩

def ofConfig {α : Type} (c : Config α) : History := ofKey c.historyKey c.maxHistoryItems

/-! ## lists of entries -/

/-- The entries with the newest first; entries of the same time stay in order. -/
def newestFirst (l : List HistoryEntry) : List HistoryEntry :=
  l.mergeSort fun a b => decide (b.timestamp ≤ a.timestamp)

/-- The entries that agree up to case with none before them and with none in `seen`. -/
def firstOfEach (seen : List Text) : List HistoryEntry → List HistoryEntry
  | [] => []
  | e :: rest =>
    if seen.contains e.folded then firstOfEach seen rest
    else e :: firstOfEach (e.folded :: seen) rest

/-- The history that a stored list stands for. -/
def repair (h : History) (l : List HistoryEntry) : List HistoryEntry :=
  (firstOfEach [] (newestFirst l)).take h.maxItems

/-- The entries whose queries differ from a query by more than case. -/
def without (folded : Text) (l : List HistoryEntry) : List HistoryEntry :=
  l.filter fun e => e.folded ≠ folded

/-- The history after a query was submitted: its entry comes first, and takes the place of an
older one. -/
def recorded (h : History) (e : HistoryEntry) (l : List HistoryEntry) : List HistoryEntry :=
  (e :: without e.folded l).take h.maxItems

/-! ## operations -/

variable {σ : Type} [Store σ]

def read (h : History) (s : σ) : List HistoryEntry × σ :=
  match Store.get s h.key with
  | (.ok (some t), s) => (((HistoryEntry.decode? t).map h.repair).getD [], s)
  | (_, s) => ([], s)

def write (h : History) (s : σ) (l : List HistoryEntry) : σ :=
  (Store.set s h.key (HistoryEntry.encode l)).2

def record (h : History) (s : σ) (e : HistoryEntry) : σ :=
  let (l, s) := h.read s
  h.write s (h.recorded e l)

/-- Adds the entry of a query that is submitted now, unless the query is blank. -/
def save (h : History) (s : σ) (now : Int) (query : Text) (resultCount : Nat) : σ :=
  match HistoryEntry.ofQuery? now query resultCount with
  | some e => h.record s e
  | none => s

/-- Removes the entry of a query, whatever its case. -/
def remove (h : History) (s : σ) (query : Text) : σ :=
  let (l, s) := h.read s
  let kept := without (Text.lowercase (Text.trim query)) l
  if kept.length = l.length then s else h.write s kept

def clear (h : History) (s : σ) : σ := (Store.delete s h.key).2

def load (h : History) (s : σ) (limit : Nat) : List HistoryEntry × σ :=
  let (l, s) := h.read s
  (l.take limit, s)

/-- The newest entries, at most `limit`, whose queries start with a text, whatever its case. -/
def suggestions (h : History) (s : σ) (start : Text) (limit : Nat) : List HistoryEntry × σ :=
  let (l, s) := h.read s
  let start := Text.lowercase (Text.trim start)
  ((l.filter fun e => start.isPrefixOf e.folded).take limit, s)

end History
end ContentSearch
