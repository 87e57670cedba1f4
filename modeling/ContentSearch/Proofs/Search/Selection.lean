import ContentSearch.Proofs.Collections
import ContentSearch.Proofs.Text.Occurrence
import ContentSearch.Search.Selection

/-!
# Which items a query keeps

`Meets` says of the entry of an item what filters, exclusions and phrases ask for; `mem_candidates_iff` is that the
candidates of a search are the positions of the items that meet the query, and `candidates_sorted` that they ascend.
-/

namespace ContentSearch.Index

variable {α : Type}

/-- The entry of an item meets a query: each filter names an attribute in which the entry has one of the values, no
exclusion occurs in any attribute, and each phrase occurs in a scored field. -/
structure Meets (x : Index α) (q : Query) (e : IndexedItem) : Prop where
  filters : ∀ name values, (name, values) ∈ q.filters.toList →
    ∃ r f v, x.resolve? name = some r ∧ e.entry? r = some f ∧ v ∈ values ∧ v ∈ f.values
  exclusions : ∀ t ∈ q.exclusions, ∀ f ∈ e.fields ++ e.filterFields, ¬ t <:+: f.lower
  phrases : ∀ t ∈ q.phrases, ∃ f ∈ e.fields, t <:+: f.lower

theorem meets_of_terms (x : Index α) {q : Query} (hfilters : q.filters.toList = []) (hexclusions : q.exclusions = [])
    (hphrases : q.phrases = []) (e : IndexedItem) : x.Meets q e := by
  refine ⟨fun name values h => ?_, fun t h => ?_, fun t h => ?_⟩
  · exact absurd (hfilters ▸ h) List.not_mem_nil
  · exact absurd (hexclusions ▸ h) List.not_mem_nil
  · exact absurd (hphrases ▸ h) List.not_mem_nil

/-! ## filters -/

theorem passes_iff {f : ResolvedFilter} {e : IndexedItem} :
    f.passes e = true ↔ ∃ entry v, e.entry? f.target = some entry ∧ v ∈ f.values ∧ v ∈ entry.values := by
  unfold ResolvedFilter.passes
  cases e.entry? f.target with
  | none => simp
  | some entry => simp [IndexedField.hasValue]

theorem forall₂_of_resolveFilters? {x : Index α} {q : Query} {filters : List ResolvedFilter}
    (h : x.resolveFilters? q = some filters) :
    List.Forall₂ (fun nv f => x.resolve? nv.1 = some f.target ∧ f.values = nv.2) q.filters.toList filters := by
  refine (mapM_eq_some_iff.1 h).imp ?_
  rintro ⟨name, values⟩ f hf
  obtain ⟨r, hr, rfl⟩ := Option.map_eq_some_iff.1 hf
  exact ⟨hr, rfl⟩

theorem not_meets_of_resolveFilters? {x : Index α} {q : Query} (h : x.resolveFilters? q = none) (e : IndexedItem) :
    ¬ x.Meets q e := by
  intro hmeets
  obtain ⟨⟨name, values⟩, hmem, hnone⟩ := exists_of_mapM_eq_none h
  obtain ⟨r, -, -, hr, -⟩ := hmeets.filters name values hmem
  have hnone' : (x.resolve? name).map (ResolvedFilter.mk · values) = none := hnone
  rw [hr] at hnone'
  exact Option.some_ne_none _ hnone'

theorem passes_all_iff {x : Index α} {q : Query} {filters : List ResolvedFilter}
    (h : x.resolveFilters? q = some filters) {e : IndexedItem} :
    (∀ f ∈ filters, f.passes e = true) ↔ ∀ name values, (name, values) ∈ q.filters.toList →
      ∃ r f v, x.resolve? name = some r ∧ e.entry? r = some f ∧ v ∈ values ∧ v ∈ f.values := by
  have hall := forall₂_of_resolveFilters? h
  constructor
  · intro hpass name values hmem
    obtain ⟨f, hf, hr, hvalues⟩ := exists_of_mem_left hall hmem
    obtain ⟨entry, v, hentry, hv, hmem⟩ := passes_iff.1 (hpass f hf)
    rw [hvalues] at hv
    exact ⟨f.target, entry, v, hr, hentry, hv, hmem⟩
  · intro hmeets f hf
    obtain ⟨⟨name, values⟩, hmem, hr, hvalues⟩ := exists_of_mem_right hall hf
    obtain ⟨r, entry, v, hr', hentry, hv, hmem⟩ := hmeets name values hmem
    obtain rfl : f.target = r := Option.some.inj (hr.symm.trans hr')
    exact passes_iff.2 ⟨entry, v, hentry, by rw [hvalues]; exact hv, hmem⟩

/-! ## exclusions and phrases -/

theorem anyFieldMentions_iff {e : IndexedItem} {t : Text} :
    e.anyFieldMentions t = true ↔ ∃ f ∈ e.fields, t <:+: f.lower := by
  simp only [IndexedItem.anyFieldMentions, List.any_eq_true, IndexedField.mentions, Text.occursIn_iff]

theorem anyAttributeMentions_iff {e : IndexedItem} {t : Text} :
    e.anyAttributeMentions t = true ↔ ∃ f ∈ e.fields ++ e.filterFields, t <:+: f.lower := by
  simp only [IndexedItem.anyAttributeMentions, List.any_eq_true, IndexedField.mentions, Text.occursIn_iff]

theorem keeps_iff {x : Index α} {q : Query} {filters : List ResolvedFilter}
    (h : x.resolveFilters? q = some filters) {e : IndexedItem} : keeps filters q e = true ↔ x.Meets q e := by
  have hexclusions : (!q.exclusions.any e.anyAttributeMentions) = true ↔
      ∀ t ∈ q.exclusions, ∀ f ∈ e.fields ++ e.filterFields, ¬ t <:+: f.lower := by
    simp only [Bool.not_eq_true', List.any_eq_false, anyAttributeMentions_iff, not_exists, not_and]
  rw [keeps, Bool.and_eq_true, Bool.and_eq_true, List.all_eq_true, passes_all_iff h, hexclusions]
  simp only [List.all_eq_true, anyFieldMentions_iff]
  constructor
  · rintro ⟨⟨hf, he⟩, hp⟩
    exact ⟨hf, he, hp⟩
  · rintro ⟨hf, he, hp⟩
    exact ⟨⟨hf, he⟩, hp⟩

/-! ## candidates -/

/-- The candidates are the positions, among the first `count`, of the items that meet the query. -/
theorem mem_candidates_iff {x : Index α} {q : Query} {filters : List ResolvedFilter}
    (h : x.resolveFilters? q = some filters) {count i : Nat} :
    i ∈ x.candidates count filters q ↔ i < count ∧ ∃ e, x.items[i]? = some e ∧ x.Meets q e := by
  have hmem : i ∈ x.candidates count filters q ↔
      ∃ e, (x.items.take count)[i]? = some e ∧ keeps filters q e = true := by
    unfold candidates
    simp [List.mem_zipIdx_iff_getElem?]
  rw [hmem]
  simp only [keeps_iff h, List.getElem?_take]
  constructor
  · rintro ⟨e, he, hmeets⟩
    split at he
    · next hlt => exact ⟨hlt, e, he, hmeets⟩
    · simp at he
  · rintro ⟨hlt, e, he, hmeets⟩
    exact ⟨e, by rw [if_pos hlt, he], hmeets⟩

theorem candidates_sorted (x : Index α) (count : Nat) (filters : List ResolvedFilter) (q : Query) :
    (x.candidates count filters q).Pairwise (· < ·) := by
  have hsub : (x.candidates count filters q).Sublist (((x.items.take count).zipIdx).map (·.2)) :=
    List.filter_sublist.map _
  refine List.Pairwise.sublist hsub ?_
  rw [List.zipIdx_map_snd]
  exact List.pairwise_lt_range'

end ContentSearch.Index
