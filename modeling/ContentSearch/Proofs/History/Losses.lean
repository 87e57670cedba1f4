import ContentSearch.Proofs.History.Digest
import ContentSearch.Proofs.Store.Durable
import ContentSearch.Store.Outage

/-!
# What a history loses

A query is recorded in the list that is read, and where nothing can be read that list is empty.

* `Lost`: why an entry of the stored list is gone once a query was recorded;
* `Holds.record`: what one recording stores, `Holds.lost`: it loses entries for no other reasons;
* `Holds.saveAll`: what a run of submissions stores, and what each of them loses;
* `entries_lost`: so whatever a run loses was replaced, repeated, without room, or could not be read.

The last reason takes away all entries, although there is room for them and their queries are not submitted again
(`erased_unread`).
-/

namespace ContentSearch.History

open DurableStore (find?)

section Runs

variable {σ : Type} [DurableStore σ]

/-- The list that is stored under the key of a history. -/
def Holds (h : History) (s : σ) (l : List HistoryEntry) : Prop :=
  (find? s h.key).bind HistoryEntry.decode? = some l

/-- The next reading of the history fails. -/
def Unreadable (h : History) (s : σ) : Prop := ∃ e, (Store.get s h.key).1 = .error e

/-- Why an entry of a stored list is gone once the entry of a query was recorded. -/
inductive Lost (h : History) (s : σ) (l : List HistoryEntry) (recorded e : HistoryEntry) : Prop
  /-- The query of the entry was submitted again. -/
  | replaced (same : e.folded = recorded.folded)
  /-- Another stored entry has its query, and is no older. -/
  | repeated (e' : HistoryEntry) (mem : e' ∈ l) (ne : e' ≠ e) (same : e'.folded = e.folded)
      (le : e.timestamp ≤ e'.timestamp)
  /-- There is no room for it beside the recorded entry and others that are no older. -/
  | noRoom (l' : List HistoryEntry) (holds : h.Holds (h.record s recorded) l') (full : l'.length = h.maxItems)
      (newer : ∀ e' ∈ l', e' = recorded ∨ e.timestamp ≤ e'.timestamp)
  /-- The list could not be read. -/
  | unread (unreadable : h.Unreadable s)

/-! ## one recording -/

variable {h : History} {s : σ} {l : List HistoryEntry}

theorem Holds.unique {l' : List HistoryEntry} (hl : h.Holds s l) (hl' : h.Holds s l') : l' = l :=
  Option.some.inj (hl'.symm.trans hl)

theorem holds_write (h : History) (s : σ) (hrange : ∀ e ∈ l, e.InRange) : h.Holds (h.write s l) l := by
  have hfind : find? (h.write s l) h.key = some (HistoryEntry.encode l) :=
    DurableStore.find?_set_self s h.key (HistoryEntry.encode l)
  rw [Holds, hfind, Option.bind_some, HistoryEntry.decode?_encode hrange]

theorem read_of_unreadable (hs : h.Unreadable s) : h.read s = ([], (Store.get s h.key).2) := by
  obtain ⟨e, he⟩ := hs
  have hpair : Store.get s h.key = (.error e, (Store.get s h.key).2) := Prod.ext he rfl
  rw [read, hpair]

theorem Holds.read_eq (hl : h.Holds s l) (hs : ¬ h.Unreadable s) : h.read s = (h.repair l, (Store.get s h.key).2) := by
  obtain ⟨t, ht, hdecode⟩ := Option.bind_eq_some_iff.1 hl
  have hget : (Store.get s h.key).1 = .ok (some t) :=
    ht ▸ (DurableStore.get_eq_or s h.key).resolve_right hs
  have hpair : Store.get s h.key = (.ok (some t), (Store.get s h.key).2) := Prod.ext hget rfl
  rw [read, hpair]
  simp only [hdecode, Option.map_some, Option.getD_some]

/-- A recording stores the recorded entry before those that are read, and alone if nothing can be read. -/
theorem Holds.record (hl : h.Holds s l) {e : HistoryEntry} (he : e.InRange) :
    (h.Unreadable s → h.Holds (h.record s e) [e]) ∧
      (¬ h.Unreadable s → h.Holds (h.record s e) (h.recorded e (h.repair l))) := by
  constructor
  · intro hs
    have halone : h.recorded e [] = [e] := List.take_of_length_le h.maxItems_pos
    rw [History.record, read_of_unreadable hs]
    show h.Holds (h.write _ (h.recorded e [])) [e]
    rw [halone]
    exact holds_write h _ (by simpa using he)
  · intro hs
    obtain ⟨t, -, hdecode⟩ := Option.bind_eq_some_iff.1 hl
    rw [History.record, hl.read_eq hs]
    apply holds_write
    intro e' he'
    rcases List.mem_cons.1 (List.mem_of_mem_take he') with rfl | he'
    · exact he
    · exact HistoryEntry.inRange_of_decode? hdecode e' (mem_of_mem_repair (List.mem_of_mem_filter he'))

/-- Of the entries that are kept beside the recorded one, those for which there is no room are the oldest. -/
theorem mem_or_full_of_mem_without {e a : HistoryEntry} {k : List HistoryEntry}
    (hk : k.Pairwise fun a b => b.timestamp ≤ a.timestamp) (ha : a ∈ without e.folded k) :
    a ∈ h.recorded e k ∨ (h.recorded e k).length = h.maxItems ∧
      ∀ b ∈ h.recorded e k, b = e ∨ a.timestamp ≤ b.timestamp := by
  have hpos := h.maxItems_pos
  obtain ⟨n, hn⟩ : ∃ n, h.maxItems = n + 1 := ⟨h.maxItems - 1, by omega⟩
  rw [recorded, hn, List.take_succ_cons]
  have hsplit := List.take_append_drop n (without e.folded k)
  rcases List.mem_append.1 (hsplit ▸ ha) with hfirst | hlater
  · exact .inl (List.mem_cons_of_mem _ hfirst)
  · right
    have hlength : n < (without e.folded k).length := by
      have hlater := List.length_pos_of_mem hlater
      rw [List.length_drop] at hlater
      omega
    have hordered : ((without e.folded k).take n ++ (without e.folded k).drop n).Pairwise
        fun a b => b.timestamp ≤ a.timestamp := hsplit.symm ▸ hk.filter _
    refine ⟨by rw [List.length_cons, List.length_take_of_le (by omega)], ?_⟩
    intro b hb
    exact (List.mem_cons.1 hb).imp_right fun hb => (List.pairwise_append.1 hordered).2.2 b hb a hlater

/-- No more than one entry makes room for the recorded one, so a history that was full is full. -/
theorem length_recorded_of_full {e : HistoryEntry} {k : List HistoryEntry} (hk : h.Tidy k)
    (hfull : k.length = h.maxItems) : (h.recorded e k).length = h.maxItems := by
  have hone : (k.map HistoryEntry.folded).count e.folded ≤ 1 := List.nodup_iff_count_le_one.1 hk.distinct e.folded
  have hsplit : k.length = (k.map HistoryEntry.folded).count e.folded + (without e.folded k).length := by
    rw [List.count_eq_countP, List.countP_map, without, ← List.countP_eq_length_filter,
      k.length_eq_countP_add_countP fun b => b.folded == e.folded]
    simp [Function.comp_def]
  rw [recorded, List.length_take, List.length_cons]
  omega

/-- **An entry is lost by one recording for one of these reasons only.** -/
theorem Holds.lost {e a : HistoryEntry} (hl : h.Holds s l) (he : e.InRange) (ha : a ∈ l) :
    ∃ l', h.Holds (h.record s e) l' ∧ (a ∉ l' → Lost h s l e a) := by
  by_cases hs : h.Unreadable s
  · exact ⟨_, (hl.record he).1 hs, fun _ => .unread hs⟩
  have hrecord := (hl.record he).2 hs
  refine ⟨_, hrecord, ?_⟩
  intro hgone
  by_cases hsame : a.folded = e.folded
  · exact .replaced hsame
  obtain ⟨m, hm, -⟩ := exists_digest l
  have hlatest := hm.exists_mem_take ha h.maxItems
  rw [← hm.repair_eq h] at hlatest
  have htidy := tidy_repair h l
  rcases hlatest with ⟨a', ha', hfolded, htime⟩ | ⟨hfull, hnewer⟩
  · by_cases heq : a' = a
    · -- it is read, and stays unless it is cut off after the recorded entry came before it
      have hkept : a ∈ without e.folded (h.repair l) := List.mem_filter.2 ⟨heq ▸ ha', by simpa using hsame⟩
      obtain ⟨hlength, hnewer⟩ := (mem_or_full_of_mem_without htidy.newest hkept).resolve_left hgone
      exact .noRoom _ hrecord hlength hnewer
    · exact .repeated a' (mem_of_mem_repair ha') heq hfolded htime
  · refine .noRoom _ hrecord (length_recorded_of_full htidy hfull) ?_
    intro b hb
    exact (List.mem_cons.1 (List.mem_of_mem_take hb)).imp_right fun hb => hnewer b (List.mem_of_mem_filter hb)

/-! ## runs -/

/-- A query that is submitted, with the time and the number of its results. -/
structure Submission where
  now : Int
  query : Text
  resultCount : Nat
  deriving Repr, DecidableEq

namespace Submission

/-- The entry of a query that is not blank. -/
def entry (o : Submission) : HistoryEntry := ⟨Text.trim o.query, o.now, o.resultCount⟩

/-- The query is not blank, and the numbers fit in machine words. -/
structure Proper (o : Submission) : Prop where
  not_blank : Text.trim o.query ≠ []
  inRange : o.entry.InRange

end Submission

def saveAll (h : History) (s : σ) (os : List Submission) : σ :=
  os.foldl (fun s o => h.save s o.now o.query o.resultCount) s

theorem save_eq_record {o : Submission} (ho : o.Proper) : h.save s o.now o.query o.resultCount = h.record s o.entry := by
  rw [save, HistoryEntry.ofQuery?, List.isEmpty_eq_false_iff.2 ho.not_blank]
  rfl

theorem saveAll_cons {o : Submission} (ho : o.Proper) (os : List Submission) :
    h.saveAll s (o :: os) = h.saveAll (h.record s o.entry) os := by
  rw [← save_eq_record ho]
  rfl

theorem saveAll_concat {o : Submission} (ho : o.Proper) (os : List Submission) :
    h.saveAll s (os ++ [o]) = h.record (h.saveAll s os) o.entry := by
  rw [← save_eq_record ho, saveAll, List.foldl_append]
  rfl

/-- **A run stores a list, and what it loses is lost by one of its submissions.** -/
theorem Holds.saveAll (hl : h.Holds s l) {os : List Submission} (hos : ∀ o ∈ os, o.Proper) :
    ∃ l', h.Holds (h.saveAll s os) l' ∧ ∀ a ∈ l, a ∉ l' → ∃ before o after l₀, os = before ++ o :: after ∧
      h.Holds (h.saveAll s before) l₀ ∧ a ∈ l₀ ∧ Lost h (h.saveAll s before) l₀ o.entry a := by
  induction os generalizing s l with
  | nil => exact ⟨l, hl, fun a ha hgone => absurd ha hgone⟩
  | cons o os ih =>
    obtain ⟨ho, hos⟩ := List.forall_mem_cons.1 hos
    obtain ⟨l₁, hl₁⟩ : ∃ l₁, h.Holds (h.record s o.entry) l₁ := by
      by_cases hs : h.Unreadable s
      · exact ⟨_, (hl.record ho.inRange).1 hs⟩
      · exact ⟨_, (hl.record ho.inRange).2 hs⟩
    obtain ⟨l', hl', hlost⟩ := ih hl₁ hos
    rw [saveAll_cons ho]
    refine ⟨l', hl', ?_⟩
    intro a ha hgone
    by_cases hkept : a ∈ l₁
    · obtain ⟨before, o', after, l₀, rfl, hl₀, ha₀, hreason⟩ := hlost a hkept hgone
      rw [← saveAll_cons ho] at hl₀ hreason
      exact ⟨o :: before, o', after, l₀, rfl, hl₀, ha₀, hreason⟩
    · obtain ⟨l₂, hl₂, hreason⟩ := hl.lost ho.inRange ha
      exact ⟨[], o, os, l, rfl, hl, ha, hreason (hl₁.unique hl₂ ▸ hkept)⟩

/-- **What a run of submissions loses.**  Let a list be stored in a store that keeps what it is given, any reading of which
may fail, and let queries that are not blank be submitted one after another.  Each submission stores its entry before those
that are read, its own query taken away, as many as there is room for; if the reading fails, it stores its entry alone.  So
an entry is gone after a submission only if its query was submitted, another stored entry has its query and is no older,
there is no room for it beside others that are no older, or the reading failed; and what is gone after the run was gone
after one of its submissions. -/
theorem entries_lost (h : History) {s : σ} {l : List HistoryEntry} (hl : h.Holds s l) {os : List Submission}
    (hos : ∀ o ∈ os, o.Proper) :
    (∀ before o after, os = before ++ o :: after → ∃ l₀ l₁, h.Holds (h.saveAll s before) l₀ ∧
      h.Holds (h.saveAll s (before ++ [o])) l₁ ∧
      (h.Unreadable (h.saveAll s before) → l₁ = [o.entry]) ∧
      (¬ h.Unreadable (h.saveAll s before) → l₁ = h.recorded o.entry (h.repair l₀)) ∧
      ∀ a ∈ l₀, a ∉ l₁ → Lost h (h.saveAll s before) l₀ o.entry a) ∧
    ∃ l', h.Holds (h.saveAll s os) l' ∧ ∀ a ∈ l, a ∉ l' → ∃ before o after l₀, os = before ++ o :: after ∧
      h.Holds (h.saveAll s before) l₀ ∧ a ∈ l₀ ∧ Lost h (h.saveAll s before) l₀ o.entry a := by
  refine ⟨?_, hl.saveAll hos⟩
  rintro before o after rfl
  have ho : o.Proper := hos o (by simp)
  obtain ⟨l₀, hl₀, -⟩ := hl.saveAll fun o' ho' => hos o' (List.mem_append_left _ ho')
  obtain ⟨hunread, hread⟩ := hl₀.record ho.inRange
  rw [saveAll_concat ho]
  by_cases hs : h.Unreadable (h.saveAll s before)
  · exact ⟨l₀, _, hl₀, hunread hs, fun _ => rfl, fun hno => absurd hs hno, fun _ _ _ => .unread hs⟩
  · refine ⟨l₀, _, hl₀, hread hs, fun hno => absurd hno hs, fun _ => rfl, ?_⟩
    intro a ha hgone
    obtain ⟨l₁, hl₁, hreason⟩ := hl₀.lost ho.inRange ha
    exact hreason ((hread hs).unique hl₁ ▸ hgone)

end Runs

def roomy : History := ofKey "search-history".toList 3

/-- One query is stored, and the second of the next readings fails. -/
def unsteady : Unsteady (Dictionary Text) :=
  ⟨(∅ : Dictionary Text).insert roomy.key (HistoryEntry.encode [⟨"rust".toList, 1, 7⟩]), [false, true]⟩

def submissions : List Submission := [⟨2, " api ".toList, 5⟩, ⟨3, "lean".toList, 0⟩, ⟨4, "zig".toList, 2⟩]

theorem entries_lost_unsteady :
    roomy.Holds (roomy.saveAll unsteady submissions) [⟨"zig".toList, 4, 2⟩, ⟨"lean".toList, 3, 0⟩] ∧
      ∃ before o after l₀, submissions = before ++ o :: after ∧ roomy.Holds (roomy.saveAll unsteady before) l₀ ∧
        Lost roomy (roomy.saveAll unsteady before) l₀ o.entry ⟨"rust".toList, 1, 7⟩ := by
  have hproper : ∀ o ∈ submissions, o.Proper := by
    simp only [submissions, List.forall_mem_cons, List.not_mem_nil, false_implies, implies_true, and_true]
    exact ⟨⟨by decide, by decide, by decide, by decide⟩, ⟨by decide, by decide, by decide, by decide⟩,
      ⟨by decide, by decide, by decide, by decide⟩⟩
  have hstart : roomy.Holds unsteady [⟨"rust".toList, 1, 7⟩] := by
    rw [Holds]
    decide +kernel
  have hend : roomy.Holds (roomy.saveAll unsteady submissions) [⟨"zig".toList, 4, 2⟩, ⟨"lean".toList, 3, 0⟩] := by
    rw [Holds]
    decide +kernel
  obtain ⟨l', hl', hlost⟩ := (entries_lost roomy hstart hproper).2
  obtain ⟨before, o, after, l₀, hsplit, hl₀, -, hreason⟩ :=
    hlost ⟨"rust".toList, 1, 7⟩ (by decide) (by rw [hend.unique hl']; decide)
  exact ⟨hend, before, o, after, l₀, hsplit, hl₀, hreason⟩

/-- **A reading that fails erases the history.**  One query is stored, there is room for three, another one is saved while
the store cannot be read, and after that only the other one is stored. -/
theorem erased_unread :
    Text.lowercase "rust".toList ≠ Text.lowercase "api".toList ∧ 2 ≤ roomy.maxItems ∧
      ((unsteady.store.find? roomy.key).bind HistoryEntry.decode?) = some [⟨"rust".toList, 1, 7⟩] ∧
      ((roomy.save (⟨unsteady.store, [.get]⟩ : Outage (Dictionary Text)) 2 "api".toList 5).store.find? roomy.key).bind
        HistoryEntry.decode? = some [⟨"api".toList, 2, 5⟩] := by
  decide +kernel

end ContentSearch.History
