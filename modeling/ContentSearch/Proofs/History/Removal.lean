import ContentSearch.Proofs.History.Digest
import ContentSearch.Proofs.History.Recency

/-!
# What a removal does to the stored list

A history reads no more of a stored list than it has room for, and a removal is made in what is read.

* `stored?_remove_of_mem`: if the query is in what is read, the stored list is what was read without it;
* `find?_remove_of_not_mem`: otherwise the stored text stays as it is;
* `remove_stored`: so a removal takes nothing but the entry of its query from a list for which there is room.

Of a list that is longer than the capacity the removal of one entry cuts off the oldest ones as well, and an entry that is
not read is not removed (`oldest_cut_off`).
-/

namespace ContentSearch.History

open LawfulStore (find?)

variable {σ : Type} [LawfulStore σ]

/-- The list that is stored, as it was written. -/
def stored? (h : History) (s : σ) : Option (List HistoryEntry) := (find? s h.key).bind HistoryEntry.decode?

theorem stored?_eq_of_find? {h : History} {s s' : σ} (hfind : find? s' h.key = find? s h.key) :
    h.stored? s' = h.stored? s := by
  rw [stored?, stored?, hfind]

theorem contents_of_stored? {h : History} {s : σ} {l : List HistoryEntry} (hl : h.stored? s = some l) :
    h.contents s = h.repair l := by
  rw [contents, show (find? s h.key).bind HistoryEntry.decode? = some l from hl]
  rfl

theorem stored?_write (h : History) (s : σ) {l : List HistoryEntry} (hrange : ∀ e ∈ l, e.InRange) :
    h.stored? (h.write s l) = some l := by
  have hfind : find? (h.write s l) h.key = some (HistoryEntry.encode l) :=
    LawfulStore.find?_set_self s h.key (HistoryEntry.encode l)
  rw [stored?, hfind, Option.bind_some, HistoryEntry.decode?_encode hrange]

/-! ## removing -/

variable (h : History) {s : σ} {query : Text}

theorem find?_remove_of_not_mem (hno : ∀ e ∈ h.contents s, e.folded ≠ Text.lowercase (Text.trim query)) :
    find? (h.remove s query) h.key = find? s h.key := by
  have hsame : without (Text.lowercase (Text.trim query)) (h.contents s) = h.contents s :=
    List.filter_eq_self.2 fun e he => by simpa using hno e he
  unfold remove
  rw [read_eq]
  dsimp only
  rw [if_pos (by rw [hsame])]
  exact LawfulStore.find?_get s h.key h.key

theorem stored?_remove_of_mem (hmem : ∃ e ∈ h.contents s, e.folded = Text.lowercase (Text.trim query)) :
    h.stored? (h.remove s query) = some (without (Text.lowercase (Text.trim query)) (h.contents s)) := by
  obtain ⟨e, he, hfolded⟩ := hmem
  have hlength : (without (Text.lowercase (Text.trim query)) (h.contents s)).length ≠ (h.contents s).length := by
    intro hlength
    have hkept := List.length_filter_eq_length_iff.1 hlength e he
    simp [hfolded] at hkept
  unfold remove
  rw [read_eq]
  dsimp only
  rw [if_neg hlength]
  exact stored?_write h _ fun e he => inRange_contents h s e (List.mem_of_mem_filter he)

/-! ## lists without repetitions -/

theorem Digest.perm {l : List HistoryEntry} {m : List (HistoryEntry × Nat)} (hm : Digest l m)
    (hdistinct : (l.map HistoryEntry.folded).Nodup) : (m.map Prod.fst).Perm l := by
  have hperm := perm_newestFirst l
  have hsorted : ((newestFirst l).map HistoryEntry.folded).Nodup := (hperm.map _).nodup_iff.2 hdistinct
  rw [hm.map_fst_eq, firstOfEach_of_distinct hsorted (by simp)]
  exact hperm

/-- **A removal takes the entry of its query from what is read, and nothing else.**  Let a list be stored in which no two
queries are equal up to case.  What is read of it are its newest entries, as many as there is room for.  If one of these
has the query, the list that is stored afterwards are the others of these; if none has, the stored text stays as it is, as
it does if no stored entry has the query.  So if there is room for the whole list, the list that is stored afterwards has
exactly the entries with other queries, as they were.  No text under another key is changed. -/
theorem remove_stored {t : Text} {l : List HistoryEntry} (hfind : find? s h.key = some t)
    (hdecode : HistoryEntry.decode? t = some l) (hdistinct : (l.map HistoryEntry.folded).Nodup) (query : Text) :
    ∃ m, Digest l m ∧ (m.map Prod.fst).Perm l ∧ h.contents s = (m.map Prod.fst).take h.maxItems ∧
      ((∃ e ∈ h.contents s, e.folded = Text.lowercase (Text.trim query)) → h.stored? (h.remove s query) =
        some ((h.contents s).filter fun e => e.folded ≠ Text.lowercase (Text.trim query))) ∧
      ((∀ e ∈ h.contents s, e.folded ≠ Text.lowercase (Text.trim query)) →
        find? (h.remove s query) h.key = some t) ∧
      ((∀ e ∈ l, e.folded ≠ Text.lowercase (Text.trim query)) → find? (h.remove s query) h.key = some t) ∧
      (l.length ≤ h.maxItems → ∃ l', h.stored? (h.remove s query) = some l' ∧
        l'.Perm (l.filter fun e => e.folded ≠ Text.lowercase (Text.trim query))) ∧
      ∀ k, k ≠ h.key → find? (h.remove s query) k = find? s k := by
  obtain ⟨m, hm, -⟩ := exists_digest l
  have hstored : h.stored? s = some l := by rw [stored?, hfind, Option.bind_some, hdecode]
  have hcontents : h.contents s = h.repair l := contents_of_stored? hstored
  have hread : h.contents s = (m.map Prod.fst).take h.maxItems := hcontents.trans (hm.repair_eq h)
  have hkeep : (∀ e ∈ h.contents s, e.folded ≠ Text.lowercase (Text.trim query)) →
      find? (h.remove s query) h.key = some t := fun hno => (find?_remove_of_not_mem h hno).trans hfind
  refine ⟨m, hm, hm.perm hdistinct, hread, fun hmem => stored?_remove_of_mem h hmem, hkeep, ?_, ?_,
    fun k hk => find?_run_of_ne h s (.remove query) hk⟩
  · intro hno
    exact hkeep fun e he => hno e (mem_of_mem_repair (hcontents ▸ he))
  · intro hroom
    have hperm : (h.contents s).Perm l := by
      rw [hread, List.take_of_length_le (by rw [(hm.perm hdistinct).length_eq]; exact hroom)]
      exact hm.perm hdistinct
    by_cases hmem : ∃ e ∈ h.contents s, e.folded = Text.lowercase (Text.trim query)
    · exact ⟨_, stored?_remove_of_mem h hmem, hperm.filter _⟩
    · have hno : ∀ e ∈ h.contents s, e.folded ≠ Text.lowercase (Text.trim query) := fun e he heq => hmem ⟨e, he, heq⟩
      have hall : (l.filter fun e => e.folded ≠ Text.lowercase (Text.trim query)) = l := by
        rw [List.filter_eq_self]
        intro e he
        simpa using hno e (hperm.mem_iff.2 he)
      refine ⟨l, ?_, by rw [hall]⟩
      rw [stored?, hkeep hno, Option.bind_some, hdecode]

def three : List HistoryEntry := [⟨"rust".toList, 3, 7⟩, ⟨"api".toList, 2, 5⟩, ⟨"Search".toList, 1, 4⟩]

def threeStored : Dictionary Text := (∅ : Dictionary Text).insert two.key (HistoryEntry.encode three)

/-- The last query is removed with room for all three, in another case and not trimmed. -/
theorem remove_stored_three :
    ∃ l', (ofKey two.key 3).stored? ((ofKey two.key 3).remove threeStored " SEARCH ".toList) = some l' ∧
      l'.Perm [⟨"rust".toList, 3, 7⟩, ⟨"api".toList, 2, 5⟩] := by
  obtain ⟨m, -, -, -, -, -, -, hroom, -⟩ := remove_stored (ofKey two.key 3) (s := threeStored) rfl
    (show HistoryEntry.decode? (HistoryEntry.encode three) = some three by decide +kernel) (by decide +kernel)
    " SEARCH ".toList
  obtain ⟨l', hl', hperm⟩ := hroom (by decide)
  refine ⟨l', hl', ?_⟩
  rwa [show three.filter (fun e => e.folded ≠ Text.lowercase (Text.trim " SEARCH ".toList)) =
    [⟨"rust".toList, 3, 7⟩, ⟨"api".toList, 2, 5⟩] by decide +kernel] at hperm

/-- **A removal may touch more than its query, and may miss it.**  Three queries are stored, and the history has room for
two.  Removing the newest one takes the oldest one away too, and removing the oldest one leaves all three. -/
theorem oldest_cut_off :
    two.stored? threeStored = some three ∧ (three.map HistoryEntry.folded).Nodup ∧
      two.stored? (two.remove threeStored "rust".toList) = some [⟨"api".toList, 2, 5⟩] ∧
      (three.filter fun e => e.folded ≠ Text.lowercase (Text.trim "rust".toList)) =
        [⟨"api".toList, 2, 5⟩, ⟨"Search".toList, 1, 4⟩] ∧
      two.stored? (two.remove threeStored "search".toList) = some three ∧
      (three.filter fun e => e.folded ≠ Text.lowercase (Text.trim "search".toList)) =
        [⟨"rust".toList, 3, 7⟩, ⟨"api".toList, 2, 5⟩] := by
  have hstored : two.stored? threeStored = some three := by decide +kernel
  have hsorted : newestFirst three = three := by simp [newestFirst, three, List.mergeSort]
  have hcontents : two.contents threeStored = [⟨"rust".toList, 3, 7⟩, ⟨"api".toList, 2, 5⟩] := by
    rw [contents_of_stored? hstored, repair, hsorted]
    decide +kernel
  refine ⟨hstored, by decide +kernel, ?_, by decide +kernel, ?_, by decide +kernel⟩
  · have hmem : ∃ e ∈ two.contents threeStored, e.folded = Text.lowercase (Text.trim "rust".toList) := by
      rw [hcontents]
      decide +kernel
    rw [stored?_remove_of_mem two hmem, hcontents]
    decide +kernel
  · have hno : ∀ e ∈ two.contents threeStored, e.folded ≠ Text.lowercase (Text.trim "search".toList) := by
      rw [hcontents]
      decide +kernel
    rw [stored?_eq_of_find? (find?_remove_of_not_mem two hno), hstored]

end ContentSearch.History
