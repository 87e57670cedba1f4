import ContentSearch.Proofs.Collections
import ContentSearch.Proofs.History.Encoding
import ContentSearch.Proofs.History.Tidy

/-!
# The digest of a stored list

A stored list may have its entries in any order, and a query any number of times.  What a history makes of it can be said
by the places of the entries alone:

* `IsLatest`: no entry with the same query up to case is newer, and none of the same time is stored before it;
* `Digest`: the latest entry of each query, newest first, and in stored order where the times are equal; there is one
  (`exists_digest`) and no other (`Digest.unique`);
* `repair_eq`: repair cuts the digest off at the capacity;
* `load_digest`: what callers see of a stored list, whatever it is.
-/

namespace ContentSearch.History

/-- An entry of a stored list, with its place, comes before another one: it is newer, or of the same time and stored
before it. -/
def Precedes (a b : HistoryEntry × Nat) : Prop :=
  b.1.timestamp < a.1.timestamp ∨ a.1.timestamp = b.1.timestamp ∧ a.2 < b.2

/-- An entry of a stored list that comes before all others with the same query up to case. -/
structure IsLatest (l : List HistoryEntry) (a : HistoryEntry × Nat) : Prop where
  mem : a ∈ l.zipIdx
  first : ∀ b ∈ l.zipIdx, b.1.folded = a.1.folded → b = a ∨ Precedes a b

/-- **The digest of a stored list**: the latest entry of each query, in the order in which they come. -/
structure Digest (l : List HistoryEntry) (m : List (HistoryEntry × Nat)) : Prop where
  mem_iff : ∀ a, a ∈ m ↔ IsLatest l a
  ordered : m.Pairwise Precedes

/-! ## the order of entries -/

theorem Precedes.asymm {a b : HistoryEntry × Nat} (hab : Precedes a b) : ¬ Precedes b a := by
  unfold Precedes at *
  omega

theorem Precedes.ne {a b : HistoryEntry × Nat} (hab : Precedes a b) : a ≠ b := by
  rintro rfl
  exact hab.asymm hab

theorem Precedes.timestamp_le {a b : HistoryEntry × Nat} (hab : Precedes a b) : b.1.timestamp ≤ a.1.timestamp := by
  unfold Precedes at hab
  omega

theorem Digest.unique {l : List HistoryEntry} {m m' : List (HistoryEntry × Nat)} (hm : Digest l m) (hm' : Digest l m') :
    m' = m := by
  have hnodup {k : List (HistoryEntry × Nat)} (hk : Digest l k) : k.Nodup := hk.ordered.imp Precedes.ne
  have hperm : m'.Perm m :=
    (List.perm_ext_iff_of_nodup (hnodup hm') (hnodup hm)).2 fun a => (hm'.mem_iff a).trans (hm.mem_iff a).symm
  exact hperm.eq_of_pairwise (fun a b _ _ hab hba => absurd hba hab.asymm) hm'.ordered hm.ordered

/-- The entries of a stored list with their places, in the order in which they come. -/
def placed (l : List HistoryEntry) : List (HistoryEntry × Nat) :=
  l.zipIdx.mergeSort fun a b => decide (b.1.timestamp ≤ a.1.timestamp)

theorem mem_placed_iff {l : List HistoryEntry} {a : HistoryEntry × Nat} : a ∈ placed l ↔ a ∈ l.zipIdx :=
  (List.mergeSort_perm ..).mem_iff

theorem map_fst_placed (l : List HistoryEntry) : (placed l).map Prod.fst = newestFirst l := by
  have hmap : (placed l).map Prod.fst =
      (l.zipIdx.map Prod.fst).mergeSort fun a b => decide (b.timestamp ≤ a.timestamp) :=
    List.map_mergeSort fun a _ b _ => rfl
  rw [hmap, List.zipIdx_map_fst, newestFirst]

/-- Sorting by time keeps the stored order of entries of the same time. -/
theorem pairwise_placed (l : List HistoryEntry) : (placed l).Pairwise Precedes := by
  have trans : ∀ a b c : HistoryEntry × Nat, decide (b.1.timestamp ≤ a.1.timestamp) = true →
      decide (c.1.timestamp ≤ b.1.timestamp) = true → decide (c.1.timestamp ≤ a.1.timestamp) = true := by
    intro a b c hab hbc
    simp only [decide_eq_true_eq] at *
    omega
  have total : ∀ a b : HistoryEntry × Nat,
      (decide (b.1.timestamp ≤ a.1.timestamp) || decide (a.1.timestamp ≤ b.1.timestamp)) = true := by
    intro a b
    simp only [Bool.or_eq_true, decide_eq_true_eq]
    omega
  have hplaces : (l.zipIdx.map Prod.snd).Pairwise (· < ·) := by
    rw [List.zipIdx_map_snd]
    exact List.pairwise_lt_range'
  have hplaces := List.pairwise_map.1 hplaces
  refine ((List.pairwise_mergeSort trans total _).and (pairwise_mergeSort_of_pairwise trans total hplaces)).imp ?_
  rintro a b ⟨hle, hlt⟩
  simp only [decide_eq_true_eq, decide_eq_false_iff_not] at hle hlt
  unfold Precedes
  omega

/-! ## the first entry of each query -/

/-- Of entries in order, those whose queries come first are those that precede all others with the same query. -/
theorem exists_firstOfEach {k : List (HistoryEntry × Nat)} (hk : k.Pairwise Precedes) (seen : List Text) :
    ∃ m : List (HistoryEntry × Nat), m.Sublist k ∧ firstOfEach seen (k.map Prod.fst) = m.map Prod.fst ∧
      ∀ a ∈ k, a ∈ m ↔ a.1.folded ∉ seen ∧ ∀ b ∈ k, b.1.folded = a.1.folded → b = a ∨ Precedes a b := by
  induction k generalizing seen with
  | nil => exact ⟨[], .slnil, rfl, by simp⟩
  | cons c k ih =>
    obtain ⟨hc, hk⟩ := List.pairwise_cons.1 hk
    -- an entry after `c` that precedes all others with its query has another query than `c`
    have hrest : ∀ a ∈ k, (c.1.folded = a.1.folded → c = a ∨ Precedes a c) ↔ c.1.folded ≠ a.1.folded := by
      intro a ha
      constructor
      · intro h heq
        rcases h heq with rfl | hac
        · exact (hc c ha).ne rfl
        · exact (hc a ha).asymm hac
      · intro hne heq
        exact absurd heq hne
    rw [List.map_cons, firstOfEach]
    split
    · next hseen =>
      obtain ⟨m, hsub, hmap, hmem⟩ := ih hk seen
      refine ⟨m, hsub.cons c, hmap, ?_⟩
      intro a ha
      rw [List.contains_iff_mem] at hseen
      rcases List.mem_cons.1 ha with rfl | ha
      · apply iff_of_false
        · intro ham
          exact (hc a (hsub.subset ham)).ne rfl
        · intro h
          exact h.1 hseen
      · rw [hmem a ha, List.forall_mem_cons, hrest a ha]
        apply and_congr_right
        intro hnew
        have hother : c.1.folded ≠ a.1.folded := fun heq => hnew (heq ▸ hseen)
        exact (and_iff_right hother).symm
    · next hseen =>
      obtain ⟨m, hsub, hmap, hmem⟩ := ih hk (c.1.folded :: seen)
      refine ⟨c :: m, hsub.cons_cons c, by rw [hmap, List.map_cons], ?_⟩
      intro a ha
      rw [List.contains_iff_mem] at hseen
      rcases List.mem_cons.1 ha with rfl | ha
      · refine iff_of_true List.mem_cons_self ⟨hseen, ?_⟩
        intro b hb _
        rcases List.mem_cons.1 hb with rfl | hb
        · exact .inl rfl
        · exact .inr (hc b hb)
      · have hne : a ≠ c := (hc a ha).ne.symm
        rw [List.mem_cons, or_iff_right hne, hmem a ha, List.forall_mem_cons, hrest a ha, List.mem_cons, not_or, ne_comm]
        tauto

theorem exists_digest (l : List HistoryEntry) : ∃ m, Digest l m ∧ m.map Prod.fst = firstOfEach [] (newestFirst l) := by
  obtain ⟨m, hsub, hmap, hmem⟩ := exists_firstOfEach (pairwise_placed l) []
  have hlatest : ∀ a, a ∈ m ↔ IsLatest l a := by
    intro a
    constructor
    · intro ha
      have hplaced := hsub.subset ha
      exact ⟨mem_placed_iff.1 hplaced, fun b hb => ((hmem a hplaced).1 ha).2 b (mem_placed_iff.2 hb)⟩
    · intro ha
      exact (hmem a (mem_placed_iff.2 ha.mem)).2 ⟨List.not_mem_nil, fun b hb => ha.first b (mem_placed_iff.1 hb)⟩
  exact ⟨m, ⟨hlatest, (pairwise_placed l).sublist hsub⟩, by rw [← hmap, map_fst_placed]⟩

/-! ## what a digest holds -/

variable {l : List HistoryEntry} {m : List (HistoryEntry × Nat)}

theorem Digest.map_fst_eq (hm : Digest l m) : m.map Prod.fst = firstOfEach [] (newestFirst l) := by
  obtain ⟨m', hm', hmap⟩ := exists_digest l
  rw [hm'.unique hm, hmap]

/-- **Repair cuts the digest off at the capacity.** -/
theorem Digest.repair_eq (hm : Digest l m) (h : History) : h.repair l = (m.map Prod.fst).take h.maxItems := by
  rw [repair, hm.map_fst_eq]

/-- No query is lost to an older entry of it. -/
theorem Digest.exists_latest (hm : Digest l m) {e : HistoryEntry} (he : e ∈ l) :
    ∃ a ∈ m, a.1.folded = e.folded ∧ e.timestamp ≤ a.1.timestamp := by
  obtain ⟨n, hn⟩ : ∃ n, (e, n) ∈ placed l := by
    have hplaced : e ∈ (placed l).map Prod.fst := map_fst_placed l ▸ (perm_newestFirst l).mem_iff.2 he
    obtain ⟨⟨e', n⟩, hmem, rfl⟩ := List.mem_map.1 hplaced
    exact ⟨n, hmem⟩
  -- the entries of the query in order: the first one of them is the latest
  have hsame : (e, n) ∈ (placed l).filter fun b => b.1.folded = e.folded := List.mem_filter.2 ⟨hn, by simp⟩
  obtain ⟨a, rest, hfilter⟩ := List.exists_cons_of_ne_nil (List.ne_nil_of_mem hsame)
  obtain ⟨hfirst, -⟩ := List.pairwise_cons.1 (hfilter ▸ (pairwise_placed l).filter _)
  have hlatest : ∀ b ∈ placed l, b.1.folded = e.folded → b = a ∨ Precedes a b := by
    intro b hb heq
    have hmem : b ∈ a :: rest := hfilter ▸ List.mem_filter.2 ⟨hb, by simpa using heq⟩
    exact (List.mem_cons.1 hmem).imp_right (hfirst b)
  obtain ⟨ha, hfolded⟩ := List.mem_filter.1 (hfilter ▸ List.mem_cons_self : a ∈ (placed l).filter _)
  have hfolded : a.1.folded = e.folded := by simpa using hfolded
  refine ⟨a, (hm.mem_iff a).2 ⟨mem_placed_iff.1 ha, ?_⟩, hfolded, ?_⟩
  · intro b hb heq
    exact hlatest b (mem_placed_iff.2 hb) (heq.trans hfolded)
  · rcases hlatest (e, n) hn rfl with rfl | hprec
    · exact Int.le_refl _
    · exact hprec.timestamp_le

/-- A query of which no entry is among the first ones of the digest is as old as all of these. -/
theorem Digest.exists_mem_take (hm : Digest l m) {e : HistoryEntry} (he : e ∈ l) (n : Nat) :
    (∃ e' ∈ (m.map Prod.fst).take n, e'.folded = e.folded ∧ e.timestamp ≤ e'.timestamp) ∨
      ((m.map Prod.fst).take n).length = n ∧ ∀ e' ∈ (m.map Prod.fst).take n, e.timestamp ≤ e'.timestamp := by
  obtain ⟨a, ha, hfolded, htime⟩ := hm.exists_latest he
  rw [← List.map_take]
  have hsplit := List.take_append_drop n m
  rcases List.mem_append.1 (hsplit ▸ ha) with hfirst | hlater
  · exact .inl ⟨a.1, List.mem_map_of_mem hfirst, hfolded, htime⟩
  · right
    have hlength : n < m.length := by
      have hpos := List.length_pos_of_mem hlater
      rw [List.length_drop] at hpos
      omega
    refine ⟨by rw [List.length_map, List.length_take_of_le (by omega)], ?_⟩
    intro e' he'
    obtain ⟨b, hb, rfl⟩ := List.mem_map.1 he'
    have hordered : (m.take n ++ m.drop n).Pairwise Precedes := hsplit.symm ▸ hm.ordered
    exact Int.le_trans htime ((List.pairwise_append.1 hordered).2.2 b hb a hlater).timestamp_le

/-! ## what callers see -/

section Reading

variable {σ : Type} [Store σ] {h : History} {s : σ} {t : Text}

theorem read_of_get (hget : (Store.get s h.key).1 = .ok (some t)) :
    (h.read s).1 = ((HistoryEntry.decode? t).map h.repair).getD [] := by
  have hpair : Store.get s h.key = (.ok (some t), (Store.get s h.key).2) := Prod.ext hget rfl
  rw [read, hpair]

/-- **Reading repairs any stored list.**  Let the stored text be that of a list of entries, in any order, with any
repetitions and times.  It has exactly one digest, and `load` gives the first entries of it, no more than the limit and
the capacity allow.  So what it gives is newest first, without two queries equal up to case and within the capacity; for
every stored entry it has one of the same query that is no older, unless it is full of entries that are no older; and
when it is stored in place of the list, `load` gives it again. -/
theorem load_digest {l : List HistoryEntry} (hget : (Store.get s h.key).1 = .ok (some t))
    (hdecode : HistoryEntry.decode? t = some l) :
    ∃ m, Digest l m ∧ (∀ m', Digest l m' → m' = m) ∧ ∀ limit,
      (h.load s limit).1 = (m.map Prod.fst).take (min limit h.maxItems) ∧
      h.Tidy (h.load s limit).1 ∧
      (∀ e ∈ l, (∃ e' ∈ (h.load s limit).1, e'.folded = e.folded ∧ e.timestamp ≤ e'.timestamp) ∨
        (h.load s limit).1.length = min limit h.maxItems ∧
          ∀ e' ∈ (h.load s limit).1, e.timestamp ≤ e'.timestamp) ∧
      ∀ (s' : σ) (n : Nat), (Store.get s' h.key).1 = .ok (some (HistoryEntry.encode (h.load s limit).1)) →
        (h.load s' n).1 = (h.load s limit).1.take n := by
  obtain ⟨m, hm, -⟩ := exists_digest l
  refine ⟨m, hm, fun m' => hm.unique, ?_⟩
  intro limit
  have hload : (h.load s limit).1 = (h.repair l).take limit := by
    show (h.read s).1.take limit = _
    rw [read_of_get hget, hdecode]
    rfl
  have heq : (h.load s limit).1 = (m.map Prod.fst).take (min limit h.maxItems) := by
    rw [hload, hm.repair_eq, List.take_take]
  have htidy : h.Tidy (h.load s limit).1 := hload ▸ (tidy_repair h l).of_sublist (List.take_sublist ..)
  refine ⟨heq, htidy, fun e he => heq ▸ hm.exists_mem_take he _, ?_⟩
  intro s' n hget'
  have hrange : ∀ e ∈ (h.load s limit).1, e.InRange := by
    intro e he
    exact HistoryEntry.inRange_of_decode? hdecode e (mem_of_mem_repair (List.mem_of_mem_take (hload ▸ he)))
  show (h.read s').1.take n = _
  rw [read_of_get hget', HistoryEntry.decode?_encode hrange, Option.map_some, Option.getD_some, repair_of_tidy htidy]

end Reading

/-- A stored list in no order, with one query twice. -/
def unordered : List HistoryEntry :=
  [⟨"old".toList, 1000, 1⟩, ⟨"newest".toList, 3000, 2⟩, ⟨"OLD".toList, 2000, 3⟩, ⟨"oldest".toList, 500, 0⟩,
    ⟨"also old".toList, 2000, 4⟩]

theorem load_digest_unordered :
    ∃ m, Digest unordered m ∧
      ((ofKey "k".toList 3).load ((∅ : Dictionary Text).insert "k".toList (HistoryEntry.encode unordered)) 9).1 =
        (m.map Prod.fst).take 3 ∧
      (m.map Prod.fst).take 3 =
        [⟨"newest".toList, 3000, 2⟩, ⟨"OLD".toList, 2000, 3⟩, ⟨"also old".toList, 2000, 4⟩] := by
  obtain ⟨m, hm, -, hload⟩ := load_digest (h := ofKey "k".toList 3)
    (s := (∅ : Dictionary Text).insert "k".toList (HistoryEntry.encode unordered)) rfl
    (show HistoryEntry.decode? (HistoryEntry.encode unordered) = some unordered by decide +kernel)
  obtain ⟨heq, -⟩ := hload 9
  have hsorted : newestFirst unordered = [⟨"newest".toList, 3000, 2⟩, ⟨"OLD".toList, 2000, 3⟩,
      ⟨"also old".toList, 2000, 4⟩, ⟨"old".toList, 1000, 1⟩, ⟨"oldest".toList, 500, 0⟩] := by
    simp [newestFirst, unordered, List.mergeSort]
  refine ⟨m, hm, heq, ?_⟩
  rw [hm.map_fst_eq, hsorted]
  decide +kernel

end ContentSearch.History
