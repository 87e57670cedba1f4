import ContentSearch.History.Recorder
import ContentSearch.Proofs.History.Recency

/-!
# What the queue of a recorder comes to

The writer may be late, but what it will have written is settled as soon as an entry is queued: `settled` is the store
after the entry that the writer has taken and those in the queue are recorded, one after another.

* `Sound`: a writer is at work exactly if the flag is up, there is never a second one, and without one the queue is empty;
* `settled_submit`, `settled_advance`: a submission records its entry in the settled store, and the writer changes nothing;
* `settled_flush`: flushing makes the settled store the store;
* `settled_runAll`: what any interleaving of calls with the writer settles, if every call that changes the store at once is
  made while nothing is pending;
* `flush_runAll`: so after a flush the store is the one that the calls would have left one after another.

A call that changes the store at once while an entry is pending comes before that entry, although it was made after it;
and queries that differ in case alone may be lowered to different texts, one of which a removal of the other leaves
(`later_calls_overtaken`).
-/

namespace ContentSearch

namespace Recorder

variable {σ : Type}

/-- A writer is at work exactly if the flag is up, and the flag is up as long as an entry is queued. -/
structure Sound (r : Recorder σ) : Prop where
  writers : r.writers.length = r.writing.toNat
  queue : r.queue ≠ [] → r.writing = true

/-- The entries that are not recorded yet, in the order of their submission. -/
def pending (r : Recorder σ) : List HistoryEntry := r.writers.filterMap id ++ r.queue

/-! ## one writer -/

theorem sound_ofHistory (h : History) (s : σ) : (ofHistory h s).Sound := ⟨rfl, by simp [ofHistory]⟩

theorem Sound.writers_eq_nil {r : Recorder σ} (hr : r.Sound) (h : r.writing = false) : r.writers = [] := by
  have hlength := hr.writers
  rw [h] at hlength
  exact List.length_eq_zero_iff.1 hlength

theorem Sound.exists_writer {r : Recorder σ} (hr : r.Sound) (h : r.writing = true) : ∃ v, r.writers = [v] := by
  have hlength := hr.writers
  rw [h] at hlength
  exact List.length_eq_one_iff.1 hlength

theorem Sound.pending_eq_nil {r : Recorder σ} (hr : r.Sound) (h : r.writing = false) : r.pending = [] := by
  have hqueue : r.queue = [] := by
    by_contra hne
    rw [hr.queue hne] at h
    exact Bool.noConfusion h
  rw [pending, hr.writers_eq_nil h, hqueue]
  rfl

theorem Sound.submit_eq {r : Recorder σ} (hr : r.Sound) (e : HistoryEntry) :
    r.submit e =
      { r with queue := r.queue ++ [e], writing := true, writers := if r.writing then r.writers else [none] } := by
  unfold Recorder.submit
  cases hwriting : r.writing with
  | true => rfl
  | false => simp [hr.writers_eq_nil hwriting]

theorem Sound.submit {r : Recorder σ} (hr : r.Sound) (e : HistoryEntry) : (r.submit e).Sound := by
  rw [hr.submit_eq]
  refine ⟨?_, fun _ => rfl⟩
  show (if r.writing then r.writers else [none]).length = 1
  split
  · next hwriting => rw [hr.writers, hwriting, Bool.toNat_true]
  · rfl

theorem pending_submit {r : Recorder σ} (hr : r.Sound) (e : HistoryEntry) : (r.submit e).pending = r.pending ++ [e] := by
  rw [hr.submit_eq]
  cases hwriting : r.writing with
  | true => simp [pending]
  | false => simp [pending, hr.writers_eq_nil hwriting]

theorem Sound.onStore {r : Recorder σ} (hr : r.Sound) (f : History → σ → σ) : (r.onStore f).Sound :=
  ⟨hr.writers, hr.queue⟩

theorem Sound.writing_of_writers {r : Recorder σ} (hr : r.Sound) {v : Option HistoryEntry} (hv : r.writers = [v]) :
    r.writing = true := by
  by_contra hne
  have hnil := hr.writers_eq_nil (Bool.not_eq_true _ ▸ hne)
  rw [hv] at hnil
  exact List.cons_ne_nil _ _ hnil

theorem Sound.writing_of_work {r : Recorder σ} (hr : r.Sound) (h : r.work = 0) : r.writing = false := by
  by_contra hne
  rw [Bool.not_eq_false] at hne
  obtain ⟨v, hv⟩ := hr.exists_writer hne
  rw [work, hv] at h
  cases v <;> simp at h

/-! ## the writer's steps -/

section Writer

variable [Store σ]

theorem advance_of_held {r : Recorder σ} {e : HistoryEntry} (hv : r.writers = [some e]) :
    r.advance 0 = { r with store := r.history.record r.store e, writers := [none] } := by
  simp [advance, hv]

theorem advance_of_cons {r : Recorder σ} {e : HistoryEntry} {queue : List HistoryEntry} (hv : r.writers = [none])
    (hqueue : r.queue = e :: queue) : r.advance 0 = { r with queue, writers := [some e] } := by
  simp [advance, hv, hqueue]

theorem advance_of_nil {r : Recorder σ} (hv : r.writers = [none]) (hqueue : r.queue = []) :
    r.advance 0 = { r with writing := false, writers := [] } := by
  simp [advance, hv, hqueue]

theorem advance_of_ge {r : Recorder σ} {n : Nat} (hn : r.writers.length ≤ n) : r.advance n = r := by
  simp [advance, hn]

/-- What the writer does next: nothing if there is none, and otherwise it records the entry that it has taken, takes the
next one, or stops. -/
theorem Sound.advance_cases {r : Recorder σ} (hr : r.Sound) (n : Nat) :
    r.advance n = r ∨
    (∃ e, r.writers = [some e] ∧
      r.advance n = { r with store := r.history.record r.store e, writers := [none] }) ∨
    (∃ e queue, r.writers = [none] ∧ r.queue = e :: queue ∧ r.advance n = { r with queue, writers := [some e] }) ∨
    (r.writers = [none] ∧ r.queue = [] ∧ r.advance n = { r with writing := false, writers := [] }) := by
  rcases Nat.lt_or_ge n r.writers.length with hn | hn
  · have hle : r.writers.length ≤ 1 := hr.writers ▸ Bool.toNat_le r.writing
    obtain rfl : n = 0 := by omega
    obtain ⟨v, hv⟩ := List.length_eq_one_iff.1 (show r.writers.length = 1 by omega)
    right
    cases v with
    | some e => exact .inl ⟨e, hv, advance_of_held hv⟩
    | none =>
      right
      cases hqueue : r.queue with
      | cons e queue => exact .inl ⟨e, queue, hv, rfl, advance_of_cons hv hqueue⟩
      | nil => exact .inr ⟨hv, rfl, hqueue ▸ advance_of_nil hv hqueue⟩
  · exact .inl (advance_of_ge hn)

theorem Sound.advance {r : Recorder σ} (hr : r.Sound) (n : Nat) : (r.advance n).Sound := by
  rcases hr.advance_cases n with h | ⟨e, hv, h⟩ | ⟨e, queue, hv, -, h⟩ | ⟨hv, hqueue, h⟩
  · rwa [h]
  · rw [h]
    exact ⟨by simp [hr.writing_of_writers hv], hr.queue⟩
  · rw [h]
    exact ⟨by simp [hr.writing_of_writers hv], fun _ => hr.writing_of_writers hv⟩
  · rw [h]
    exact ⟨rfl, fun hne => absurd hqueue hne⟩

/-! ## the settled store -/

/-- The store after all pending entries are recorded. -/
def settled (r : Recorder σ) : σ := r.pending.foldl r.history.record r.store

theorem Sound.settled_eq_store {r : Recorder σ} (hr : r.Sound) (h : r.writing = false) : r.settled = r.store := by
  rw [settled, hr.pending_eq_nil h, List.foldl_nil]

theorem settled_submit {r : Recorder σ} (hr : r.Sound) (e : HistoryEntry) :
    (r.submit e).settled = r.history.record r.settled e := by
  rw [settled, pending_submit hr, List.foldl_append, hr.submit_eq]
  rfl

/-- The writer does nothing that was not settled before. -/
theorem settled_advance {r : Recorder σ} (hr : r.Sound) (n : Nat) : (r.advance n).settled = r.settled := by
  rcases hr.advance_cases n with h | ⟨e, hv, h⟩ | ⟨e, queue, hv, hqueue, h⟩ | ⟨hv, hqueue, h⟩
  · rw [h]
  · rw [h]
    simp [settled, pending, hv]
  · rw [h]
    simp [settled, pending, hv, hqueue]
  · rw [h]
    simp [settled, pending, hv, hqueue]

/-! ## flushing -/

theorem work_advance {r : Recorder σ} (hr : r.Sound) : (r.advance 0).work = r.work - 1 := by
  cases hwriting : r.writing with
  | false =>
    have hwriters := hr.writers_eq_nil hwriting
    have hqueue : r.queue = [] := (List.append_eq_nil_iff.1 (hr.pending_eq_nil hwriting)).2
    rw [advance_of_ge (by rw [hwriters]; exact Nat.le_refl 0)]
    simp [work, hwriters, hqueue]
  | true =>
    obtain ⟨v, hv⟩ := hr.exists_writer hwriting
    cases v with
    | some e =>
      rw [advance_of_held hv]
      simp only [work, hv, List.foldr_cons, List.foldr_nil, Option.isSome_none, Option.isSome_some, Bool.false_eq_true,
        if_true, if_false]
      omega
    | none =>
      cases hqueue : r.queue with
      | cons e queue =>
        rw [advance_of_cons hv hqueue]
        simp only [work, hv, hqueue, List.foldr_cons, List.foldr_nil, List.length_cons, Option.isSome_none,
          Option.isSome_some, Bool.false_eq_true, if_true, if_false]
        omega
      | nil =>
        rw [advance_of_nil hv hqueue]
        simp [work, hv, hqueue]

theorem sound_repeat {r : Recorder σ} (hr : r.Sound) (n : Nat) :
    (n.repeat (Recorder.advance · 0) r).Sound ∧ (n.repeat (Recorder.advance · 0) r).settled = r.settled ∧
      (n.repeat (Recorder.advance · 0) r).work = r.work - n := by
  induction n with
  | zero => exact ⟨hr, rfl, rfl⟩
  | succ n ih =>
    obtain ⟨hsound, hsettled, hwork⟩ := ih
    refine ⟨hsound.advance 0, (settled_advance hsound 0).trans hsettled, ?_⟩
    show ((n.repeat (Recorder.advance · 0) r).advance 0).work = _
    rw [work_advance hsound, hwork]
    omega

/-- **A flush leaves nothing pending, and the settled store.** -/
theorem settled_flush {r : Recorder σ} (hr : r.Sound) : r.flush.writing = false ∧ r.flush.store = r.settled := by
  obtain ⟨hsound, hsettled, hwork⟩ := sound_repeat hr r.work
  have hdone : r.flush.writing = false := hsound.writing_of_work (by rw [hwork]; omega)
  exact ⟨hdone, (hsound.settled_eq_store hdone).symm.trans hsettled⟩

/-! ## calls -/

/-- A call by which a caller changes the history. -/
inductive Call where
  | saveInBackground (now : Int) (query : Text) (resultCount : Nat)
  | save (now : Int) (query : Text) (resultCount : Nat)
  | remove (query : Text)
  | clear
  deriving Repr, DecidableEq

/-- The store after a call that takes its full effect at once. -/
def Call.effect (h : History) (s : σ) : Call → σ
  | .saveInBackground now query resultCount => h.save s now query resultCount
  | .save now query resultCount => h.save s now query resultCount
  | .remove query => h.remove s query
  | .clear => h.clear s

/-- The recorder after a call has returned. -/
def Call.make (r : Recorder σ) : Call → Recorder σ
  | .saveInBackground now query resultCount => r.saveInBackground now query resultCount
  | c => r.onStore fun h s => c.effect h s

/-- What happens next: the caller makes a call, or the writer at a position takes a step. -/
inductive Move where
  | call (c : Call)
  | writer (n : Nat)
  deriving Repr, DecidableEq

def Move.run (r : Recorder σ) : Move → Recorder σ
  | .call c => c.make r
  | .writer n => r.advance n

def runAll (r : Recorder σ) (ms : List Move) : Recorder σ := ms.foldl Move.run r

def calls (ms : List Move) : List Call :=
  ms.filterMap fun
    | .call c => some c
    | .writer _ => none

/-- The call changes the store before it returns. -/
def Call.AtOnce : Call → Prop
  | .saveInBackground .. => False
  | _ => True

/-- Nothing is pending when a call is made that changes the store at once. -/
def Move.Timely (r : Recorder σ) : Move → Prop
  | .call c => c.AtOnce → r.writing = false
  | .writer _ => True

def AllTimely (r : Recorder σ) : List Move → Prop
  | [] => True
  | m :: ms => m.Timely r ∧ AllTimely (m.run r) ms

theorem history_make (r : Recorder σ) (c : Call) : (c.make r).history = r.history := by
  cases c with
  | saveInBackground now query resultCount =>
    show (r.saveInBackground now query resultCount).history = _
    unfold saveInBackground submit
    split
    · split <;> rfl
    · rfl
  | _ => rfl

theorem history_advance (r : Recorder σ) (n : Nat) : (r.advance n).history = r.history := by
  unfold advance
  split
  · rfl
  · rfl
  · split <;> rfl

theorem history_run (r : Recorder σ) (m : Move) : (m.run r).history = r.history := by
  cases m with
  | call c => exact history_make r c
  | writer n => exact history_advance r n

theorem Sound.run {r : Recorder σ} (hr : r.Sound) (m : Move) : (m.run r).Sound := by
  cases m with
  | writer n => exact hr.advance n
  | call c =>
    cases c with
    | saveInBackground now query resultCount =>
      show (r.saveInBackground now query resultCount).Sound
      unfold saveInBackground
      split
      · exact hr.submit _
      · exact hr
    | save now query resultCount => exact ⟨hr.writers, hr.queue⟩
    | remove query => exact ⟨hr.writers, hr.queue⟩
    | clear => exact ⟨hr.writers, hr.queue⟩

theorem settled_make_of_atOnce (r : Recorder σ) {c : Call} (hc : c.AtOnce) :
    (c.make r).settled = r.pending.foldl r.history.record (c.effect r.history r.store) := by
  cases c with
  | saveInBackground now query resultCount => exact hc.elim
  | save now query resultCount => rfl
  | remove query => rfl
  | clear => rfl

/-- A timely call has its effect on the settled store. -/
theorem settled_make {r : Recorder σ} (hr : r.Sound) {c : Call} (hc : c.AtOnce → r.writing = false) :
    (c.make r).settled = c.effect r.history r.settled := by
  have hatOnce : c.AtOnce → (c.make r).settled = c.effect r.history r.settled := by
    intro h
    rw [settled_make_of_atOnce r h, hr.pending_eq_nil (hc h), hr.settled_eq_store (hc h), List.foldl_nil]
  cases c with
  | saveInBackground now query resultCount =>
    show (r.saveInBackground now query resultCount).settled = r.history.save r.settled now query resultCount
    rw [saveInBackground, History.save]
    cases HistoryEntry.ofQuery? now query resultCount with
    | some e => exact settled_submit hr e
    | none => rfl
  | save now query resultCount => exact hatOnce trivial
  | remove query => exact hatOnce trivial
  | clear => exact hatOnce trivial

theorem settled_run {r : Recorder σ} (hr : r.Sound) {m : Move} (hm : m.Timely r) :
    (m.run r).settled = (calls [m]).foldl (Call.effect r.history) r.settled := by
  cases m with
  | call c => exact settled_make hr hm
  | writer n => exact settled_advance hr n

/-- **Timely calls have their effects on the settled store in the order in which they are made**, whatever the writer does
meanwhile. -/
theorem settled_runAll {r : Recorder σ} (hr : r.Sound) {ms : List Move} (hms : AllTimely r ms) :
    (r.runAll ms).Sound ∧ (r.runAll ms).settled = (calls ms).foldl (Call.effect r.history) r.settled := by
  induction ms generalizing r with
  | nil => exact ⟨hr, rfl⟩
  | cons m ms ih =>
    obtain ⟨hm, hms⟩ := hms
    obtain ⟨hsound, hsettled⟩ := ih (hr.run m) hms
    have hcalls : calls (m :: ms) = calls [m] ++ calls ms := by
      rw [calls, ← List.singleton_append, List.filterMap_append]
      rfl
    refine ⟨hsound, ?_⟩
    rw [hcalls, List.foldl_append, ← settled_run hr hm, ← history_run r m]
    exact hsettled

theorem sound_runAll {r : Recorder σ} (hr : r.Sound) (ms : List Move) :
    (r.runAll ms).Sound ∧ (r.runAll ms).history = r.history := by
  induction ms generalizing r with
  | nil => exact ⟨hr, rfl⟩
  | cons m ms ih =>
    obtain ⟨hsound, hhistory⟩ := ih (hr.run m)
    exact ⟨hsound, hhistory.trans (history_run r m)⟩

/-- **Once all is flushed, the store is the one that the calls leave one after another.**  This holds for any calls of one
caller and any steps of the writer between them, if nothing is pending whenever a call changes the store at once.  A call
that does so too early comes before all entries that are pending, although these were submitted before it. -/
theorem flush_runAll (h : History) (s : σ) (ms : List Move) :
    (AllTimely (ofHistory h s) ms → ((ofHistory h s).runAll ms).flush.writing = false ∧
      ((ofHistory h s).runAll ms).flush.store = (calls ms).foldl (Call.effect h) s) ∧
    ∀ c : Call, c.AtOnce → ((ofHistory h s).runAll (ms ++ [.call c])).flush.store =
      ((ofHistory h s).runAll ms).pending.foldl h.record (c.effect h ((ofHistory h s).runAll ms).store) := by
  have hstart := sound_ofHistory h s
  constructor
  · intro hms
    obtain ⟨hsound, hsettled⟩ := settled_runAll hstart hms
    obtain ⟨hdone, hstore⟩ := settled_flush hsound
    exact ⟨hdone, hstore.trans hsettled⟩
  · intro c hc
    obtain ⟨hsound, hhistory⟩ := sound_runAll hstart ms
    have hrun : (ofHistory h s).runAll (ms ++ [.call c]) = c.make ((ofHistory h s).runAll ms) := by
      rw [runAll, List.foldl_append]
      rfl
    have hsound' : (c.make ((ofHistory h s).runAll ms)).Sound := hsound.run (.call c)
    rw [hrun, (settled_flush hsound').2, settled_make_of_atOnce _ hc, hhistory]
    rfl

end Writer

/-- A query is saved in the background, the writer records it, and then the history is cleared. -/
def clearedInTime : List Move :=
  [.call (.saveInBackground 1 "rust".toList 3), .writer 0, .writer 0, .writer 0, .call .clear]

theorem flush_runAll_clearedInTime :
    ((ofHistory History.two (∅ : Dictionary Text)).runAll clearedInTime).flush.store =
      (calls clearedInTime).foldl (Call.effect History.two) (∅ : Dictionary Text) := by
  have htimely : AllTimely (ofHistory History.two (∅ : Dictionary Text)) clearedInTime :=
    ⟨False.elim, trivial, trivial, trivial, fun _ => rfl, trivial⟩
  exact ((flush_runAll History.two ∅ clearedInTime).1 htimely).2

/-- A query is saved in the background, and a call is made before the writer has looked at the queue. -/
def late (c : Call) : List Move := [.call (.saveInBackground 1 "rust".toList 3), .call c]

/-- The entries of a history that was empty before some moves, once all is flushed. -/
def leftAfter (ms : List Move) : List HistoryEntry :=
  (History.two.load ((ofHistory History.two (∅ : Dictionary Text)).runAll ms).flush.store 2).1

/-- The entries of a history that was empty before the calls of some moves, if each had taken full effect at once. -/
def intendedAfter (ms : List Move) : List HistoryEntry :=
  (History.two.load ((calls ms).foldl (Call.effect History.two) (∅ : Dictionary Text)) 2).1

/-- A query is saved in the background, the writer records it, and then the query is removed in capitals. Its small sigma
is no final one, but the capital sigma is lowered to a final one. -/
def removedInCapitals : List Move :=
  [.call (.saveInBackground 1 "ασ".toList 3), .writer 0, .writer 0, .writer 0, .call (.remove "ΑΣ".toList)]

/-- **A later call does not always win.**  Clearing the history, removing the query or saving it again leaves the entry of
the earlier submission in the history, if that is still pending.  And even if nothing is pending, an entry survives the
removal of its query in capitals, if these are lowered to another text. -/
theorem later_calls_overtaken :
    (leftAfter (late .clear) = [⟨"rust".toList, 1, 3⟩] ∧ intendedAfter (late .clear) = [] ∧
      leftAfter (late (.remove "Rust".toList)) = [⟨"rust".toList, 1, 3⟩] ∧
      intendedAfter (late (.remove "Rust".toList)) = [] ∧
      leftAfter (late (.save 2 "RUST".toList 5)) = [⟨"rust".toList, 1, 3⟩] ∧
      intendedAfter (late (.save 2 "RUST".toList 5)) = [⟨"RUST".toList, 2, 5⟩]) ∧
    ("ασ".toList.map Text.fold = "ΑΣ".toList.map Text.fold ∧
      leftAfter removedInCapitals = [⟨"ασ".toList, 1, 3⟩]) := by
  decide +kernel

end Recorder
end ContentSearch
