import ContentSearch.History.Basic
import Mathlib.Data.List.Nodup

/-!
# Tidy histories

A history is tidy if it is what its repair makes of any list: newest first, no two queries equal up to case, and no more
entries than there is room for (`tidy_repair`).  Repair leaves a tidy history as it is (`repair_of_tidy`), and recording or
taking away an entry keeps it tidy (`Tidy.recorded`, `Tidy.without`).
-/

namespace ContentSearch.History

/-- Newest first, no two queries equal up to case, and no more entries than there is room for. -/
structure Tidy (h : History) (l : List HistoryEntry) : Prop where
  newest : l.Pairwise fun a b => b.timestamp ≤ a.timestamp
  distinct : (l.map HistoryEntry.folded).Nodup
  bounded : l.length ≤ h.maxItems

/-! ## repair -/

theorem perm_newestFirst (l : List HistoryEntry) : (newestFirst l).Perm l := List.mergeSort_perm l _

theorem newestFirst_sorted (l : List HistoryEntry) :
    (newestFirst l).Pairwise fun a b => b.timestamp ≤ a.timestamp := by
  have trans : ∀ a b c : HistoryEntry, decide (b.timestamp ≤ a.timestamp) = true →
      decide (c.timestamp ≤ b.timestamp) = true → decide (c.timestamp ≤ a.timestamp) = true := by
    intro a b c hab hbc
    simp only [decide_eq_true_eq] at *
    omega
  have total : ∀ a b : HistoryEntry,
      (decide (b.timestamp ≤ a.timestamp) || decide (a.timestamp ≤ b.timestamp)) = true := by
    intro a b
    simp only [Bool.or_eq_true, decide_eq_true_eq]
    omega
  exact (List.pairwise_mergeSort trans total l).imp fun hle => by simpa using hle

theorem newestFirst_of_sorted {l : List HistoryEntry} (hl : l.Pairwise fun a b => b.timestamp ≤ a.timestamp) :
    newestFirst l = l :=
  List.mergeSort_of_pairwise (hl.imp fun hle => by simpa using hle)

theorem firstOfEach_sublist (seen : List Text) (l : List HistoryEntry) : (firstOfEach seen l).Sublist l := by
  induction l generalizing seen with
  | nil => exact .slnil
  | cons e l ih =>
    rw [firstOfEach]
    split
    · exact (ih seen).cons e
    · exact (ih _).cons_cons e

theorem folded_firstOfEach (seen : List Text) (l : List HistoryEntry) :
    ((firstOfEach seen l).map HistoryEntry.folded).Nodup ∧ ∀ e ∈ firstOfEach seen l, e.folded ∉ seen := by
  induction l generalizing seen with
  | nil => simp [firstOfEach]
  | cons e l ih =>
    rw [firstOfEach]
    split
    · exact ih seen
    · next hnew =>
      obtain ⟨hdistinct, hfresh⟩ := ih (e.folded :: seen)
      rw [List.map_cons, List.nodup_cons]
      refine ⟨⟨?_, hdistinct⟩, ?_⟩
      · intro hmem
        obtain ⟨e', he', heq⟩ := List.mem_map.1 hmem
        exact hfresh e' he' (by simp [heq])
      · rintro e' he'
        rcases List.mem_cons.1 he' with rfl | he'
        · simpa using hnew
        · exact fun hseen => hfresh e' he' (List.mem_cons_of_mem _ hseen)

theorem firstOfEach_of_distinct {l : List HistoryEntry} (hl : (l.map HistoryEntry.folded).Nodup) {seen : List Text}
    (hseen : ∀ e ∈ l, e.folded ∉ seen) : firstOfEach seen l = l := by
  induction l generalizing seen with
  | nil => rfl
  | cons e l ih =>
    rw [List.map_cons, List.nodup_cons] at hl
    rw [firstOfEach, if_neg (by simpa using hseen e (by simp)), ih hl.2]
    intro e' he' hmem
    rcases List.mem_cons.1 hmem with heq | hmem
    · exact hl.1 (List.mem_map.2 ⟨e', he', heq⟩)
    · exact hseen e' (List.mem_cons_of_mem _ he') hmem

variable {h : History} {l : List HistoryEntry}

theorem Tidy.of_sublist {l' : List HistoryEntry} (hl : h.Tidy l) (hsub : l'.Sublist l) : h.Tidy l' where
  newest := hl.newest.sublist hsub
  distinct := hl.distinct.sublist (hsub.map _)
  bounded := Nat.le_trans hsub.length_le hl.bounded

theorem tidy_repair (h : History) (l : List HistoryEntry) : h.Tidy (h.repair l) where
  newest := ((newestFirst_sorted l).sublist (firstOfEach_sublist [] _)).sublist (List.take_sublist ..)
  distinct := (folded_firstOfEach [] _).1.sublist ((List.take_sublist ..).map _)
  bounded := List.length_take_le ..

theorem mem_of_mem_repair {e : HistoryEntry} (he : e ∈ h.repair l) : e ∈ l :=
  (perm_newestFirst l).subset ((firstOfEach_sublist [] _).subset (List.mem_of_mem_take he))

/-- **There is nothing to repair in a tidy history.** -/
theorem repair_of_tidy (hl : h.Tidy l) : h.repair l = l := by
  rw [repair, newestFirst_of_sorted hl.newest, firstOfEach_of_distinct hl.distinct (by simp),
    List.take_of_length_le hl.bounded]

/-! ## changes -/

theorem tidy_nil (h : History) : h.Tidy [] := ⟨.nil, .nil, Nat.zero_le _⟩

theorem Tidy.without (hl : h.Tidy l) (folded : Text) : h.Tidy (without folded l) :=
  hl.of_sublist List.filter_sublist

theorem Tidy.recorded (hl : h.Tidy l) {e : HistoryEntry} (he : ∀ e' ∈ l, e'.timestamp ≤ e.timestamp) :
    h.Tidy (h.recorded e l) := by
  have hwithout := hl.without e.folded
  refine ⟨?_, ?_, List.length_take_le ..⟩
  · refine List.Pairwise.sublist (List.take_sublist ..) (List.pairwise_cons.2 ⟨?_, hwithout.newest⟩)
    intro e' he'
    exact he e' (List.mem_of_mem_filter he')
  · refine List.Nodup.sublist ((List.take_sublist ..).map _) ?_
    rw [List.map_cons, List.nodup_cons]
    refine ⟨?_, hwithout.distinct⟩
    intro hmem
    obtain ⟨e', he', heq⟩ := List.mem_map.1 hmem
    have hne := (List.mem_filter.1 he').2
    simp [heq] at hne

end ContentSearch.History
