import ContentSearch.Proofs.History.Settling

/-!
# Callers and writers side by side

What a history does when any number of callers use it at once.  Everybody is a task, and a task takes one step at a time:
submitting an entry, looking at the queue, taking or giving back the update lock, reading the stored list and writing it are
steps of their own, between which other tasks may take any of theirs.

* `Task.Step`: what one task can do, given what the tasks share;
* `World.Step`, `World.Run`: one step of some task, and any number of them;
* `Task.Step.lock_balance`, `Task.Step.entry_balance`: what a step does to the lock and to the entries on their way.
-/

namespace ContentSearch

/-! ## changes -/

/-- A change of the stored list. -/
inductive Change where
  | record (e : HistoryEntry)
  | remove (query : Text)
  | clear
  deriving Repr, DecidableEq

namespace Change

variable {σ : Type} [Store σ]

/-- The store after a change that nothing interrupts. -/
def run (h : History) (s : σ) : Change → σ
  | record e => h.record s e
  | remove query => h.remove s query
  | clear => h.clear s

/-- What a change reads before it writes. -/
def read (h : History) (s : σ) : Change → List HistoryEntry × σ
  | clear => ([], s)
  | _ => h.read s

/-- The store after a change that has read a list has written. -/
def write (h : History) (s : σ) (l : List HistoryEntry) : Change → σ
  | record e => h.write s (h.recorded e l)
  | remove query =>
    let kept := History.without (Text.lowercase (Text.trim query)) l
    if kept.length = l.length then s else h.write s kept
  | clear => h.clear s

theorem run_eq_write (h : History) (s : σ) (c : Change) : c.run h s = c.write h (c.read h s).2 (c.read h s).1 := by
  cases c <;> rfl

end Change

/-! ## tasks -/

/-- What a change is made for. -/
inductive Job where
  /-- A call of `save`, `remove` or `clear`. -/
  | call (c : Change)
  /-- An entry that a writer has taken from the queue. -/
  | entry (e : HistoryEntry)
  deriving Repr, DecidableEq

def Job.change : Job → Change
  | call c => c
  | entry e => .record e

/-- How far a change has come. -/
inductive Stage where
  /-- It waits for the lock. -/
  | waiting
  /-- It has the lock. -/
  | locked
  /-- It has the lock and has read the stored list. -/
  | loaded (l : List HistoryEntry)
  /-- It has written, and still has the lock. -/
  | written
  deriving Repr, DecidableEq

/-- What a task is at. -/
inductive Task where
  /-- A caller between two calls. -/
  | idle
  /-- A caller that has raised the flag and is about to schedule a writer. -/
  | starting
  /-- A writer that is scheduled, or about to look at the queue again. -/
  | looking
  /-- A writer that has found the queue empty. -/
  | stopped
  | working (j : Job) (stage : Stage)
  deriving Repr, DecidableEq

/-- What a task does in one step. -/
inductive Action where
  | submit (e : HistoryEntry)
  | start
  | take (e : HistoryEntry)
  | stop
  | call (c : Change)
  | lock
  | read
  | write (j : Job)
  | unlock
  deriving Repr, DecidableEq

/-- What the tasks share. -/
structure Shared (σ : Type) where
  store : σ
  /-- The entries that no writer has taken, the oldest first. -/
  queue : List HistoryEntry
  /-- Whether a writer was started that has not stopped. -/
  writing : Bool
  /-- Whether a change has the update lock. -/
  locked : Bool

namespace Task

/-- A caller that still has to schedule the writer for which it has raised the flag. -/
def isStarting : Task → Bool
  | starting => true
  | _ => false

def isRunning : Task → Bool
  | looking => true
  | working (.entry _) _ => true
  | _ => false

def hasLock : Task → Bool
  | working _ .waiting => false
  | working _ _ => true
  | _ => false

/-- The writer that a task is or is about to schedule, with the entry that it has taken and not yet recorded. -/
def writer? : Task → Option (Option HistoryEntry)
  | starting => some none
  | looking => some none
  | working (.entry _) .written => some none
  | working (.entry e) _ => some (some e)
  | _ => none

/-- The entry that a writer has taken and not yet recorded. -/
def pending? (t : Task) : Option HistoryEntry := t.writer?.join

variable {σ : Type} [Store σ]

/-- One step of a task: from what the tasks share and what it is at, by an action, to what they share and what it is at
afterwards, and to the tasks that it schedules. -/
inductive Step (h : History) : Shared σ → Task → Action → Shared σ → Task → List Task → Prop where
  /-- An entry is queued, and the flag raised, while nobody else looks at either. -/
  | submit (s : Shared σ) (e : HistoryEntry) :
      Step h s idle (.submit e) { s with queue := s.queue ++ [e], writing := true }
        (if s.writing then idle else starting) []
  | start (s : Shared σ) : Step h s starting .start s idle [looking]
  | take (s : Shared σ) (e : HistoryEntry) (queue : List HistoryEntry) (hqueue : s.queue = e :: queue) :
      Step h s looking (.take e) { s with queue } (working (.entry e) .waiting) []
  /-- The queue is found empty, and the flag lowered, while nobody else looks at either. -/
  | stop (s : Shared σ) (hqueue : s.queue = []) : Step h s looking .stop { s with writing := false } stopped []
  | call (s : Shared σ) (c : Change) : Step h s idle (.call c) s (working (.call c) .waiting) []
  | lock (s : Shared σ) (j : Job) (hfree : s.locked = false) :
      Step h s (working j .waiting) .lock { s with locked := true } (working j .locked) []
  | read (s : Shared σ) (j : Job) :
      Step h s (working j .locked) .read { s with store := (j.change.read h s.store).2 }
        (working j (.loaded (j.change.read h s.store).1)) []
  | write (s : Shared σ) (j : Job) (l : List HistoryEntry) :
      Step h s (working j (.loaded l)) (.write j) { s with store := j.change.write h s.store l } (working j .written) []
  | unlockCaller (s : Shared σ) (c : Change) :
      Step h s (working (.call c) .written) .unlock { s with locked := false } idle []
  | unlockWriter (s : Shared σ) (e : HistoryEntry) :
      Step h s (working (.entry e) .written) .unlock { s with locked := false } looking []

/-! ## what one step does -/

variable {h : History} {s s' : Shared σ} {t t' : Task} {a : Action} {new : List Task}

/-- The lock is taken only when it is free, and given back by the task that has it. -/
theorem Step.lock_balance (hstep : Step h s t a s' t' new) (hlocked : t.hasLock = true → s.locked = true) :
    t.hasLock.toNat + s'.locked.toNat = t'.hasLock.toNat + s.locked.toNat ∧ new.countP hasLock = 0 := by
  cases hstep with
  | submit e => cases s.writing <;> simp [hasLock]
  | lock j hfree => simp [hasLock, hfree]
  | unlockCaller c => simp [hasLock, hlocked rfl]
  | unlockWriter e => simp [hasLock, hlocked rfl]
  | _ => simp [hasLock]

end Task

def Action.submitted? : Action → Option HistoryEntry
  | submit e => some e
  | _ => none

/-- The entry that a writer records by an action. -/
def Action.recorded? : Action → Option HistoryEntry
  | write (.entry e) => some e
  | _ => none

def Action.isWrite : Action → Bool
  | write _ => true
  | _ => false

theorem Task.Step.of_not_writer {σ : Type} [Store σ] {h : History} {s s' : Shared σ} {t t' : Task} {a : Action}
    {new : List Task} (hstep : Step h s t a s' t' new) (ht : t.writer? = none) :
    a.recorded? = none ∧ t'.pending? = none := by
  cases hstep with
  | submit e => cases s.writing <;> exact ⟨rfl, rfl⟩
  | call | unlockCaller => exact ⟨rfl, rfl⟩
  | start | take | stop | unlockWriter => exact absurd ht (Option.some_ne_none _)
  | lock j | read j | write j =>
    cases j with
    | call c => exact ⟨rfl, rfl⟩
    | entry e => exact absurd ht (Option.some_ne_none _)

/-- No entry is lost or doubled on its way from the queue to the store. -/
theorem Task.Step.entry_balance {σ : Type} [Store σ] {h : History} {s s' : Shared σ} {t t' : Task} {a : Action}
    {new : List Task} (hstep : Step h s t a s' t' new) :
    t.pending?.toList ++ s.queue ++ a.submitted?.toList = a.recorded?.toList ++ t'.pending?.toList ++ s'.queue ∧
      new.filterMap pending? = [] := by
  cases hstep with
  | submit e => cases s.writing <;> simp [pending?, writer?, Action.submitted?, Action.recorded?]
  | take e queue hqueue => simp [pending?, writer?, Action.submitted?, Action.recorded?, hqueue]
  | lock j | read j | write j => cases j <;> simp [pending?, writer?, Action.submitted?, Action.recorded?]
  | _ => simp [pending?, writer?, Action.submitted?, Action.recorded?]

/-! ## worlds -/

/-- What the tasks share, and the tasks. -/
structure World (σ : Type) where
  shared : Shared σ
  tasks : List Task

/-- An action of the task at a position. -/
structure Event where
  task : Nat
  action : Action
  deriving Repr, DecidableEq

namespace World

variable {σ : Type}

/-- The world in which a number of callers have not made a call yet. -/
def start (s : σ) (callers : Nat) : World σ := ⟨⟨s, [], false, false⟩, List.replicate callers .idle⟩

/-- The writers, each with the entry that it has taken and not yet recorded. -/
def writers (w : World σ) : List (Option HistoryEntry) := w.tasks.filterMap Task.writer?

/-- The entries that were taken and are not yet recorded. -/
def pending (w : World σ) : List HistoryEntry := w.tasks.filterMap Task.pending?

variable [Store σ]

/-- One task takes a step, and the tasks that it schedules are added. -/
inductive Step (h : History) : World σ → Event → World σ → Prop where
  | of {s s' : Shared σ} {t t' : Task} {a : Action} {new : List Task} (before after : List Task)
      (hstep : Task.Step h s t a s' t' new) :
      Step h ⟨s, before ++ t :: after⟩ ⟨before.length, a⟩ ⟨s', before ++ t' :: after ++ new⟩

/-- Any number of steps, with their events in order. -/
inductive Run (h : History) : World σ → List Event → World σ → Prop where
  | nil (w : World σ) : Run h w [] w
  | cons {w w' w'' : World σ} {x : Event} {es : List Event} (hstep : Step h w x w') (hrun : Run h w' es w'') :
      Run h w (x :: es) w''

end World
end ContentSearch
