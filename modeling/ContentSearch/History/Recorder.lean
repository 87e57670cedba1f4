import ContentSearch.History.Basic

/-!
Writing the history in the background. Submitted entries wait in a queue; the first submission
while no writer is at work starts one, which takes the entries one by one, records each, and stops
when it finds the queue empty.
-/

namespace ContentSearch

/-- A history with its store, and what is still to be written. -/
structure Recorder (σ : Type) where
  history : History
  store : σ
  /-- The entries that no writer has taken, the oldest first. -/
  queue : List HistoryEntry
  /-- Whether a writer was started that has not stopped. -/
  writing : Bool
  /-- The writers at work, each with the entry that it has taken and not yet recorded. -/
  writers : List (Option HistoryEntry)

namespace Recorder

variable {σ : Type}

def ofHistory (h : History) (store : σ) : Recorder σ := ⟨h, store, [], false, []⟩

/-- Queues an entry, and starts a writer if none is at work. -/
def submit (r : Recorder σ) (e : HistoryEntry) : Recorder σ :=
  if r.writing then { r with queue := r.queue ++ [e] }
  else { r with queue := r.queue ++ [e], writing := true, writers := r.writers ++ [none] }

/-- Queues the entry of a query that is submitted now, unless the query is blank. -/
def saveInBackground (r : Recorder σ) (now : Int) (query : Text) (resultCount : Nat) :
    Recorder σ :=
  match HistoryEntry.ofQuery? now query resultCount with
  | some e => r.submit e
  | none => r

/-- The next step of the writer at a position: it records the entry that it has taken, takes the
next one, or stops. -/
def advance [Store σ] (r : Recorder σ) (n : Nat) : Recorder σ :=
  match r.writers[n]? with
  | none => r
  | some (some e) =>
    { r with store := r.history.record r.store e, writers := r.writers.set n none }
  | some none =>
    match r.queue with
    | e :: queue => { r with queue, writers := r.writers.set n (some e) }
    | [] => { r with writing := false, writers := r.writers.eraseIdx n }

/-- The number of steps that are left to the writers. -/
def work (r : Recorder σ) : Nat :=
  r.writers.foldr (fun held n => (if held.isSome then 2 else 1) + n) (2 * r.queue.length)

def flush [Store σ] (r : Recorder σ) : Recorder σ := r.work.repeat (advance · 0) r

def onStore (r : Recorder σ) (f : History → σ → σ) : Recorder σ :=
  { r with store := f r.history r.store }

end Recorder
end ContentSearch
