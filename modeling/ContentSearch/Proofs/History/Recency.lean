import ContentSearch.Proofs.History.Encoding
import ContentSearch.Proofs.History.Tidy
import ContentSearch.Proofs.Store.Lawful

/-!
# A history is a list of the most recent queries

In a lawful store an operation reads, repairs and writes a text, but what it does to the entries can be said without the
store: `Operation.recent` moves a saved query to the front, cuts the list off, and takes away what is removed.

* `contents_write`: what is written is read, if it is tidy;
* `contents_run`: one operation does to the contents what `recent` does, if the clock does not go back;
* `find?_run_of_ne`: and nothing to what is stored under other keys;
* `contents_runAll`: the same for any number of operations;
* `load_recency`: the history as its callers see it.
-/

namespace ContentSearch.History

open LawfulStore (find?)

variable {σ : Type} [LawfulStore σ]

/-! ## contents -/

/-- The entries that a store holds: those that the stored text stands for, if it is the text of a history. -/
def contents (h : History) (s : σ) : List HistoryEntry :=
  (((find? s h.key).bind HistoryEntry.decode?).map h.repair).getD []

theorem contents_eq_of_find? {h : History} {s s' : σ} (hfind : find? s' h.key = find? s h.key) :
    h.contents s' = h.contents s := by
  rw [contents, contents, hfind]

theorem read_eq (h : History) (s : σ) : h.read s = (h.contents s, (Store.get s h.key).2) := by
  have hget : Store.get s h.key = (.ok (find? s h.key), (Store.get s h.key).2) :=
    Prod.ext (LawfulStore.get_eq s h.key) rfl
  rw [read, contents, hget]
  cases find? s h.key with
  | none => rfl
  | some t => rfl

theorem tidy_contents (h : History) (s : σ) : h.Tidy (h.contents s) := by
  rw [contents]
  cases (find? s h.key).bind HistoryEntry.decode? with
  | none => exact tidy_nil h
  | some l => exact tidy_repair h l

theorem inRange_contents (h : History) (s : σ) : ∀ e ∈ h.contents s, e.InRange := by
  rw [contents]
  cases hdecode : (find? s h.key).bind HistoryEntry.decode? with
  | none => simp
  | some l =>
    obtain ⟨t, -, hl⟩ := Option.bind_eq_some_iff.1 hdecode
    exact fun e he => HistoryEntry.inRange_of_decode? hl e (mem_of_mem_repair he)

theorem contents_of_find?_eq_none {h : History} {s : σ} (hfind : find? s h.key = none) : h.contents s = [] := by
  rw [contents, hfind]
  rfl

theorem contents_write {h : History} (s : σ) {l : List HistoryEntry} (htidy : h.Tidy l) (hrange : ∀ e ∈ l, e.InRange) :
    h.contents (h.write s l) = l := by
  have hfind : find? (h.write s l) h.key = some (HistoryEntry.encode l) :=
    LawfulStore.find?_set_self s h.key (HistoryEntry.encode l)
  rw [contents, hfind, Option.bind_some, HistoryEntry.decode?_encode hrange, Option.map_some, Option.getD_some,
    repair_of_tidy htidy]

theorem find?_write_of_ne (h : History) (s : σ) (l : List HistoryEntry) {k : Text} (hk : k ≠ h.key) :
    find? (h.write s l) k = find? s k :=
  LawfulStore.find?_set_of_ne s _ hk

/-! ## operations -/

/-- An operation on a history, with the time at which a query is saved. -/
inductive Operation where
  | save (now : Int) (query : Text) (resultCount : Nat)
  | remove (query : Text)
  | clear
  | load (limit : Nat)
  | suggestions (start : Text) (limit : Nat)
  deriving Repr, DecidableEq

namespace Operation

def run (h : History) (s : σ) : Operation → σ
  | .save now query resultCount => h.save s now query resultCount
  | .remove query => h.remove s query
  | .clear => h.clear s
  | .load limit => (h.load s limit).2
  | .suggestions start limit => (h.suggestions s start limit).2

/-- The most recent queries after an operation, of which no more than `capacity` are kept. -/
def recent (capacity : Nat) (l : List HistoryEntry) : Operation → List HistoryEntry
  | .save now query resultCount =>
    if Text.trim query = [] then l
    else
      (⟨Text.trim query, now, resultCount⟩ ::
        l.filter fun e => e.folded ≠ Text.lowercase (Text.trim query)).take capacity
  | .remove query => l.filter fun e => e.folded ≠ Text.lowercase (Text.trim query)
  | .clear => []
  | .load _ => l
  | .suggestions _ _ => l

/-- The time of the operation, if the clock is read. -/
def time? : Operation → Option Int
  | .save now _ _ => some now
  | _ => none

/-- The numbers of the operation fit in machine words. -/
def InRange : Operation → Prop
  | .save now _ resultCount => -(signedBound : Int) ≤ now ∧ now < signedBound ∧ resultCount < wordSize
  | _ => True

/-- The times of the entries are those of before or the time of the operation. -/
theorem of_mem_recent {capacity : Nat} {l : List HistoryEntry} {o : Operation} {e : HistoryEntry}
    (he : e ∈ o.recent capacity l) : e ∈ l ∨ o.time? = some e.timestamp := by
  cases o with
  | save now query resultCount =>
    rw [recent] at he
    split at he
    · exact .inl he
    · rcases List.mem_cons.1 (List.mem_of_mem_take he) with rfl | he
      · exact .inr rfl
      · exact .inl (List.mem_of_mem_filter he)
  | remove query => exact .inl (List.mem_of_mem_filter he)
  | clear => simp [recent] at he
  | load limit => exact .inl he
  | suggestions start limit => exact .inl he

end Operation

/-! ## one operation -/

theorem find?_read (h : History) (s : σ) (k : Text) : find? (h.read s).2 k = find? s k := by
  rw [read_eq]
  exact LawfulStore.find?_get s h.key k

theorem contents_read (h : History) (s : σ) : h.contents (h.read s).2 = h.contents s :=
  contents_eq_of_find? (find?_read h s h.key)

theorem contents_record (h : History) (s : σ) {e : HistoryEntry} (he : e.InRange)
    (hclock : ∀ e' ∈ h.contents s, e'.timestamp ≤ e.timestamp) :
    h.contents (h.record s e) = h.recorded e (h.contents s) := by
  have hrange : ∀ e' ∈ h.recorded e (h.contents s), e'.InRange := by
    intro e' he'
    rcases List.mem_cons.1 (List.mem_of_mem_take he') with rfl | he'
    · exact he
    · exact inRange_contents h s e' (List.mem_of_mem_filter he')
  rw [record, read_eq]
  exact contents_write _ ((tidy_contents h s).recorded hclock) hrange

theorem contents_remove (h : History) (s : σ) (query : Text) :
    h.contents (h.remove s query) = without (Text.lowercase (Text.trim query)) (h.contents s) := by
  unfold remove
  rw [read_eq]
  dsimp only
  split
  · next hlength =>
    have hall : without (Text.lowercase (Text.trim query)) (h.contents s) = h.contents s :=
      List.filter_eq_self.2 (List.length_filter_eq_length_iff.1 hlength)
    rw [hall]
    exact contents_eq_of_find? (LawfulStore.find?_get s h.key h.key)
  · exact contents_write _ ((tidy_contents h s).without _)
      fun e he => inRange_contents h s e (List.mem_of_mem_filter he)

theorem contents_clear (h : History) (s : σ) : h.contents (h.clear s) = [] :=
  contents_of_find?_eq_none (LawfulStore.find?_delete_self s h.key)

/-- An operation does to the contents what it does to the most recent queries, if the clock is not behind any entry. -/
theorem contents_run (h : History) (s : σ) {o : Operation} (ho : o.InRange)
    (hclock : ∀ e ∈ h.contents s, ∀ now, o.time? = some now → e.timestamp ≤ now) :
    h.contents (o.run h s) = o.recent h.maxItems (h.contents s) := by
  cases o with
  | save now query resultCount =>
    show h.contents (h.save s now query resultCount) = _
    rw [save, HistoryEntry.ofQuery?, Operation.recent]
    by_cases hblank : Text.trim query = []
    · simp [hblank]
    · rw [if_neg hblank]
      simp only [List.isEmpty_iff, if_neg hblank]
      have he : HistoryEntry.InRange ⟨Text.trim query, now, resultCount⟩ := ⟨ho.1, ho.2.1, ho.2.2⟩
      exact contents_record h s he fun e he => hclock e he now rfl
  | remove query => exact contents_remove h s query
  | clear => exact contents_clear h s
  | load limit => exact contents_read h s
  | suggestions start limit => exact contents_read h s

/-- An operation leaves everything under other keys as it is. -/
theorem find?_run_of_ne (h : History) (s : σ) (o : Operation) {k : Text} (hk : k ≠ h.key) :
    find? (o.run h s) k = find? s k := by
  have hread : ∀ l, find? (h.write (h.read s).2 l) k = find? s k := fun l =>
    (find?_write_of_ne h _ l hk).trans (find?_read h s k)
  cases o with
  | save now query resultCount =>
    show find? (h.save s now query resultCount) k = _
    rw [save]
    split
    · exact hread _
    · rfl
  | remove query =>
    show find? (h.remove s query) k = _
    unfold remove
    dsimp only
    split
    · exact find?_read h s k
    · exact hread _
  | clear => exact LawfulStore.find?_delete_of_ne s hk
  | load limit => exact find?_read h s k
  | suggestions start limit => exact find?_read h s k

/-! ## runs -/

def runAll (h : History) (s : σ) (os : List Operation) : σ := os.foldl (fun s o => o.run h s) s

/-- **A run does to the contents what it does to the most recent queries**, if the clock does not go back. -/
theorem contents_runAll (h : History) (s : σ) {os : List Operation} (hrange : ∀ o ∈ os, o.InRange)
    (hclock : (os.filterMap Operation.time?).Pairwise (· ≤ ·))
    (hstart : ∀ e ∈ h.contents s, ∀ now ∈ os.filterMap Operation.time?, e.timestamp ≤ now) :
    h.contents (h.runAll s os) = os.foldl (Operation.recent h.maxItems) (h.contents s) := by
  induction os generalizing s with
  | nil => rfl
  | cons o os ih =>
    have htimes : ∀ now, o.time? = some now → now ∈ (o :: os).filterMap Operation.time? := fun now hnow =>
      List.mem_filterMap.2 ⟨o, by simp, hnow⟩
    have hlater : ∀ now ∈ os.filterMap Operation.time?, now ∈ (o :: os).filterMap Operation.time? := by
      intro now hnow
      obtain ⟨o', ho', htime⟩ := List.mem_filterMap.1 hnow
      exact List.mem_filterMap.2 ⟨o', List.mem_cons_of_mem _ ho', htime⟩
    have hstep : h.contents (o.run h s) = o.recent h.maxItems (h.contents s) :=
      contents_run h s (hrange o (by simp)) fun e he now hnow => hstart e he now (htimes now hnow)
    have hclock' : (os.filterMap Operation.time?).Pairwise (· ≤ ·) :=
      hclock.sublist ((List.sublist_cons_self o os).filterMap _)
    rw [runAll, List.foldl_cons, List.foldl_cons, ← hstep]
    refine ih (o.run h s) (fun o' ho' => hrange o' (List.mem_cons_of_mem _ ho')) hclock' ?_
    -- an entry after the step was there before it, or it is saved in this step, at a time no later than the others
    intro e he now hnow
    rw [hstep] at he
    rcases Operation.of_mem_recent he with he | htime
    · exact hstart e he now (hlater now hnow)
    · rw [List.filterMap_cons_some htime, List.pairwise_cons] at hclock
      exact hclock.1 now hnow

/-! ## what callers see -/

theorem load_fst (h : History) (s : σ) {limit : Nat} (hlimit : h.maxItems ≤ limit) :
    (h.load s limit).1 = h.contents s := by
  rw [load, read_eq]
  exact List.take_of_length_le (Nat.le_trans (tidy_contents h s).bounded hlimit)

/-- **A history is the list of the most recent queries.**  In a lawful store, whatever text it holds, let the entries be
what `load` gives with a limit no less than the capacity.  Saving a query that is not blank, with the clock not behind any
entry, puts its entry first, takes away the entry of an equal query, and keeps as many as there is room for; removing a
query takes away its entry, in whatever case; clearing leaves nothing; a blank query, `load` and `suggestions` leave every
text in the store as it is, and no operation changes a text under another key.  So any run of operations, with a clock that
does not go back, comes to the list of the most recent queries that it started with, which is empty if nothing is stored;
the list never has two queries equal up to case, nor more entries than there is room for. -/
theorem load_recency (h : History) {limit : Nat} (hlimit : h.maxItems ≤ limit) :
    (∀ (s : σ) (now : Int) (query : Text) (resultCount : Nat), Text.trim query ≠ [] →
      (Operation.save now query resultCount).InRange → (∀ e ∈ (h.load s limit).1, e.timestamp ≤ now) →
      (h.load (h.save s now query resultCount) limit).1 = (⟨Text.trim query, now, resultCount⟩ ::
        (h.load s limit).1.filter fun e => e.folded ≠ Text.lowercase (Text.trim query)).take h.maxItems) ∧
    (∀ (s : σ) (query : Text), (h.load (h.remove s query) limit).1 =
      (h.load s limit).1.filter fun e => e.folded ≠ Text.lowercase (Text.trim query)) ∧
    (∀ s : σ, (h.load (h.clear s) limit).1 = []) ∧
    (∀ (s : σ) (now : Int) (query : Text) (resultCount : Nat), Text.trim query = [] →
      h.save s now query resultCount = s) ∧
    (∀ (s : σ) (n : Nat) (k : Text), find? (h.load s n).2 k = find? s k) ∧
    (∀ (s : σ) (start : Text) (n : Nat) (k : Text), find? (h.suggestions s start n).2 k = find? s k) ∧
    (∀ (s : σ) (o : Operation) (k : Text), k ≠ h.key → find? (o.run h s) k = find? s k) ∧
    (∀ (s : σ) (os : List Operation), (∀ o ∈ os, o.InRange) → (os.filterMap Operation.time?).Pairwise (· ≤ ·) →
      (∀ e ∈ (h.load s limit).1, ∀ now ∈ os.filterMap Operation.time?, e.timestamp ≤ now) →
      (h.load (h.runAll s os) limit).1 = os.foldl (Operation.recent h.maxItems) (h.load s limit).1) ∧
    (∀ s : σ, find? s h.key = none → (h.load s limit).1 = []) ∧
    ∀ s : σ, ((h.load s limit).1.map HistoryEntry.folded).Nodup ∧ (h.load s limit).1.length ≤ h.maxItems := by
  simp only [load_fst h _ hlimit]
  refine ⟨?_, contents_remove h, contents_clear h, ?_, fun s _ => find?_read h s, fun s _ _ => find?_read h s,
    fun s o _ => find?_run_of_ne h s o, fun s _ => contents_runAll h s, fun _ => contents_of_find?_eq_none,
    fun s => ⟨(tidy_contents h s).distinct, (tidy_contents h s).bounded⟩⟩
  · intro s now query resultCount hquery hrange hclock
    have hstep : h.contents (h.save s now query resultCount) = _ :=
      contents_run h s hrange fun e he _ hnow => Option.some.inj hnow ▸ hclock e he
    rw [hstep, Operation.recent, if_neg hquery]
  · intro s now query resultCount hquery
    rw [save, HistoryEntry.ofQuery?]
    simp [hquery]

def two : History := ofKey "search-history".toList 2

def searches : List Operation :=
  [.save 1 "Rust".toList 3, .save 2 "api".toList 5, .save 2 " rust ".toList 4]

theorem load_recency_searches :
    (two.load (two.runAll (∅ : Dictionary Text) searches) 2).1 =
      [⟨"rust".toList, 2, 4⟩, ⟨"api".toList, 2, 5⟩] := by
  obtain ⟨-, -, -, -, -, -, -, hrun, hempty, -⟩ := load_recency (σ := Dictionary Text) two (by decide : two.maxItems ≤ 2)
  have hnone : (two.load (∅ : Dictionary Text) 2).1 = [] := hempty ∅ rfl
  have hrange : ∀ o ∈ searches, o.InRange := by
    simp only [searches, List.forall_mem_cons, List.not_mem_nil, false_implies, implies_true, and_true,
      Operation.InRange]
    decide
  have hstart : ∀ e ∈ (two.load (∅ : Dictionary Text) 2).1, ∀ now ∈ searches.filterMap Operation.time?,
      e.timestamp ≤ now := by
    rw [hnone]
    simp
  rw [hrun ∅ searches hrange (by decide) hstart, hnone]
  decide +kernel

end ContentSearch.History
