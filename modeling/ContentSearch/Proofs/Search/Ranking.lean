import ContentSearch.Highlight.Compiler
import ContentSearch.Proofs.Query.WellFormed
import ContentSearch.Proofs.Search.Scoring
import ContentSearch.Proofs.Search.Selection

/-!
# What a search finds, and in what order

A search makes a hit of every candidate that scores and sorts the hits by their scores.

* `exists_search`: the hits before they are sorted, for any numbers: no candidate with a score is left out, none comes
  twice, and the positions ascend;
* `exists_search_of_validate`: so it is with the index of an accepted configuration;
* `pairwise_sorted`: over exact rationals, sorted hits descend by score, and hits of one score ascend by position;
* `ranking_of_scores`: so the ranking is determined by the scores of the items;
* `search_ranked`: what a text query finds in a collection, given its text and an accepted configuration.
-/

namespace ContentSearch

/-! ## the hits of a query -/

section Hits

variable {ι α : Type} [Scalar α]

theorem Hit.positions_sorted {items : List ι} {entries : List IndexedItem} {s : Scorer α} {l : List Nat}
    {os : List (Option (Hit ι α))} (h : List.Forall₂ (IsMade items entries s) l os) (hl : l.Pairwise (· < ·)) :
    (os.filterMap id).Pairwise fun a b => a.position < b.position := by
  induction h with
  | nil => simp
  | cons ho hall ih =>
    obtain ⟨hlt, hl⟩ := List.pairwise_cons.1 hl
    rw [List.filterMap_cons]
    split
    · exact ih hl
    · next hit hhit =>
      refine List.pairwise_cons.2 ⟨?_, ih hl⟩
      intro other hother
      obtain ⟨o, hmem, hsome⟩ := List.mem_filterMap.1 hother
      obtain ⟨i, hi, hmade⟩ := exists_of_mem_right hall hmem
      rw [(ho.place hit hhit).1, (hmade.place other hsome).1]
      exact hlt i hi

theorem mem_of_mem_takeAtMost {β : Type} {limit : Option Nat} {l : List β} {b : β} (h : b ∈ takeAtMost limit l) :
    b ∈ l := by
  cases limit with
  | none => exact h
  | some n => exact List.mem_of_mem_take h

/-- The hits of a query, before they are sorted and cut off: one for each item that meets the query and has a score, in
the order of the collection. -/
theorem exists_search [PatternCompiler] (items : List ι) {x : Index α} {q : Query} (c : Config α) (hq : q.filterOnly = false)
    (hfits : ∀ e ∈ x.items, e.Fits) :
    ∃ hits : List (Hit ι α),
      (∀ limit, search items x q { c with maxResults := limit } =
        .ok (takeAtMost limit (hits.mergeSort Hit.ranksBefore))) ∧
      hits.Pairwise (fun a b => a.position < b.position) ∧
      (∀ h ∈ hits, items[h.position]? = some h.item ∧ ∃ e, x.items[h.position]? = some e ∧ x.Meets q e ∧
        (Scorer.ofQuery x q c).value? e = some h.score) ∧
      ∀ i item e, items[i]? = some item → x.items[i]? = some e → x.Meets q e →
        ((Scorer.ofQuery x q c).value? e).isSome → ∃ h ∈ hits, h.position = i := by
  cases hfilters : x.resolveFilters? q with
  | none =>
    refine ⟨[], ?_, .nil, by simp, ?_⟩
    · intro limit
      rw [search, hfilters]
      cases limit <;> simp [takeAtMost]
    · intro i item e _ _ hmeets
      exact absurd hmeets (Index.not_meets_of_resolveFilters? hfilters e)
  | some filters =>
    have hmade : ∀ i ∈ x.candidates items.length filters q, ∃ o,
        Hit.scored? items x.items (.ofQuery x q c) i = .ok o ∧ Hit.IsMade items x.items (.ofQuery x q c) i o := by
      intro i hi
      obtain ⟨hlt, e, he, -⟩ := (Index.mem_candidates_iff hfilters).1 hi
      exact Hit.exists_hit _ (List.getElem?_eq_getElem hlt) he (hfits e (List.mem_of_getElem? he))
    obtain ⟨os, hos, hall⟩ := exists_mapM_eq_ok hmade
    refine ⟨os.filterMap id, ?_, Hit.positions_sorted hall (Index.candidates_sorted ..), ?_, ?_⟩
    · intro limit
      have hscorer : Scorer.ofQuery x q { c with maxResults := limit } = .ofQuery x q c := rfl
      simp only [search, hfilters, hq, hscorer, hos, bind, Except.bind, pure, Except.pure, Bool.false_eq_true, if_false]
    · intro h hh
      obtain ⟨o, ho, rfl⟩ := List.mem_filterMap.1 hh
      obtain ⟨i, hi, hmade⟩ := exists_of_mem_right hall ho
      obtain ⟨hpos, hitem⟩ := hmade.place h rfl
      obtain ⟨-, e, he, hmeets⟩ := (Index.mem_candidates_iff hfilters).1 hi
      obtain ⟨e', he', hvalue⟩ := hmade.value
      obtain rfl : e = e' := Option.some.inj (he.symm.trans he')
      rw [hpos]
      exact ⟨hitem, e, he, hmeets, hvalue⟩
    · intro i item e hitem he hmeets hscore
      have hi : i ∈ x.candidates items.length filters q :=
        (Index.mem_candidates_iff hfilters).2 ⟨(List.getElem?_eq_some_iff.1 hitem).1, e, he, hmeets⟩
      obtain ⟨o, ho, hmade⟩ := exists_of_mem_left hall hi
      obtain ⟨e', he', hvalue⟩ := hmade.value
      obtain rfl : e = e' := Option.some.inj (he.symm.trans he')
      rw [hvalue, Option.isSome_map] at hscore
      obtain ⟨h, rfl⟩ := Option.isSome_iff_exists.1 hscore
      exact ⟨h, List.mem_filterMap.2 ⟨some h, ho, rfl⟩, (hmade.place h rfl).1⟩

end Hits

/-! ## order -/

/-- Sorted hits descend by score, and hits of one score keep their order. -/
theorem Hit.pairwise_sorted {ι : Type} {hits : List (Hit ι Rat)}
    (h : hits.Pairwise fun a b => a.position < b.position) :
    (hits.mergeSort ranksBefore).Pairwise fun a b =>
      b.score < a.score ∨ a.score = b.score ∧ a.position < b.position := by
  have trans : ∀ a b c : Hit ι Rat, ranksBefore a b = true → ranksBefore b c = true → ranksBefore a c = true := by
    intro a b c hab hbc
    simp only [ranksBefore, decide_eq_true_eq] at *
    exact le_trans hbc hab
  have total : ∀ a b : Hit ι Rat, (ranksBefore a b || ranksBefore b a) = true := by
    intro a b
    simp only [ranksBefore, Bool.or_eq_true, decide_eq_true_eq]
    exact le_total b.score a.score
  refine ((List.pairwise_mergeSort trans total hits).and (pairwise_mergeSort_of_pairwise trans total h)).imp ?_
  rintro a b ⟨hle, hor⟩
  simp only [ranksBefore, decide_eq_true_eq, decide_eq_false_iff_not, not_le] at hle hor
  rcases hor with hlt | hpos
  · exact .inl hlt
  · rcases lt_or_eq_of_le hle with hlt | heq
    · exact .inl hlt
    · exact .inr ⟨heq.symm, hpos⟩

/-- Whether a position with a score comes before another one in a ranking. -/
def Hit.Outranks (a b : Nat × Rat) : Prop := b.2 < a.2 ∨ a.2 = b.2 ∧ a.1 < b.1

instance : DecidableRel Hit.Outranks := fun _ _ => inferInstanceAs (Decidable (_ ∨ _ ∧ _))

theorem Hit.Outranks.asymm {a b : Nat × Rat} (h : Outranks a b) : ¬ Outranks b a := by
  rintro (hlt' | ⟨heq', hlt'⟩)
  · rcases h with hlt | ⟨heq, -⟩
    · exact lt_asymm hlt hlt'
    · exact lt_irrefl _ (heq ▸ hlt')
  · rcases h with hlt | ⟨-, hlt⟩
    · exact lt_irrefl _ (heq' ▸ hlt)
    · exact lt_asymm hlt hlt'

/-- **A ranking is determined by the scores of the items**: only one list of positions has all items that score and is in
order. -/
theorem Hit.ranking_of_scores {ι : Type} {items : List ι} {value : ι → Option Rat} {scores : List (Option Rat)}
    (hscores : items.map value = scores) {hits : List (Hit ι Rat)}
    (hsorted : hits.Pairwise fun a b => b.score < a.score ∨ a.score = b.score ∧ a.position < b.position)
    (hall : ∀ i item, items[i]? = some item → (value item).isSome → i ∈ hits.map position)
    (hvalues : ∀ h ∈ hits, items[h.position]? = some h.item ∧ value h.item = some h.score)
    {l : List (Nat × Rat)} (hl : l.Pairwise Outranks) (hmem : ∀ i s, (i, s) ∈ l ↔ scores[i]? = some (some s)) :
    hits.map (fun h => (h.position, h.score)) = l := by
  have hranked : (hits.map fun h => (h.position, h.score)).Pairwise Outranks := List.pairwise_map.2 hsorted
  have hnodup {l : List (Nat × Rat)} (h : l.Pairwise Outranks) : l.Nodup := by
    refine h.imp ?_
    rintro a _ hab rfl
    exact hab.asymm hab
  refine ((List.perm_ext_iff_of_nodup (hnodup hranked) (hnodup hl)).2 ?_).eq_of_pairwise
    (fun a b _ _ hab hba => absurd hba hab.asymm) hranked hl
  rintro ⟨i, s⟩
  rw [hmem, ← hscores, List.mem_map, List.getElem?_map, Option.map_eq_some_iff]
  constructor
  · rintro ⟨h, hh, heq⟩
    obtain ⟨rfl, rfl⟩ := Prod.mk.inj heq
    exact ⟨h.item, hvalues h hh⟩
  · rintro ⟨item, hitem, hs⟩
    obtain ⟨h, hh, rfl⟩ := List.mem_map.1 (hall i item hitem (by rw [hs]; rfl))
    obtain ⟨hitem', hvalue⟩ := hvalues h hh
    obtain rfl := Option.some.inj (hitem.symm.trans hitem')
    exact ⟨h, hh, by rw [Option.some.inj (hvalue.symm.trans hs)]⟩

/-! ## text queries -/

/-- The entry that an index has of an item. -/
def Index.entryOf {ι α : Type} [Searchable ι] (x : Index α) (c : Config α) (item : ι) : IndexedItem :=
  .ofItem c.idField (x.fields.map (·.name)) x.filterFields item

theorem Index.zip_entryOf {ι α : Type} [Searchable ι] (x : Index α) (c : Config α) (item : ι) :
    x.fields.zip (x.entryOf c item).fields = x.fields.map fun spec => (spec, .ofAttribute item spec.name) := by
  rw [List.map_prod_left_eq_zip, Index.entryOf, IndexedItem.ofItem, List.map_map]
  rfl

theorem Index.mem_zip_entryOf_iff {ι α : Type} [Searchable ι] {x : Index α} {c : Config α} {item : ι}
    {spec : ScoredField α} {f : IndexedField} :
    (spec, f) ∈ x.fields.zip (x.entryOf c item).fields ↔ spec ∈ x.fields ∧ f = .ofAttribute item spec.name := by
  rw [x.zip_entryOf, List.mem_map]
  constructor
  · rintro ⟨spec', hspec, heq⟩
    obtain ⟨rfl, rfl⟩ := Prod.mk.inj heq
    exact ⟨hspec, rfl⟩
  · rintro ⟨hspec, rfl⟩
    exact ⟨spec, hspec, rfl⟩

theorem Index.fits_entryOf {ι α : Type} [Searchable ι] (x : Index α) (c : Config α) {item : ι}
    (h : ∀ name v, attribute? item name = some v → v.toText.length < wordSize) : (x.entryOf c item).Fits := by
  intro f hf
  obtain ⟨name, -, rfl⟩ := List.mem_map.1 hf
  unfold IndexedField.ofAttribute
  cases hv : attribute? item name with
  | none =>
    show 0 < wordSize
    decide
  | some v => exact h name v hv

theorem Index.coherent_entryOf {ι α : Type} [Searchable ι] (x : Index α) (c : Config α) (item : ι) :
    ∀ f ∈ (x.entryOf c item).fields, f.Coherent := by
  intro f hf
  obtain ⟨name, -, rfl⟩ := List.mem_map.1 hf
  exact IndexedField.coherent_ofAttribute item name

/-- The hits of a query in a collection, given its index by an accepted configuration: one for each item that meets the query
and has a score. -/
theorem exists_search_of_validate {ι α : Type} [PatternCompiler] [Searchable ι] [Scalar α] (items : List ι) {c : Config α}
    {q : Query} (hc : c.validate = .ok ()) (hq : q.filterOnly = false)
    (hsize : ∀ item ∈ items, ∀ name v, attribute? item name = some v → v.toText.length < wordSize) :
    ∃ x, Index.build items c = .ok x ∧ x.fields ≠ [] ∧ (∀ f ∈ x.fields, f.Valid) ∧ ∃ hits : List (Hit ι α),
      (∀ limit, search items x q { c with maxResults := limit } =
        .ok (takeAtMost limit (hits.mergeSort Hit.ranksBefore))) ∧
      hits.Pairwise (fun a b => a.position < b.position) ∧
      (∀ i, i ∈ hits.map Hit.position ↔ ∃ item, items[i]? = some item ∧ x.Meets q (x.entryOf c item) ∧
        ((Scorer.ofQuery x q c).value? (x.entryOf c item)).isSome) ∧
      ∀ h ∈ hits, items[h.position]? = some h.item ∧
        (Scorer.ofQuery x q c).value? (x.entryOf c h.item) = some h.score := by
  obtain ⟨x, hx, hne, hvalid, hitems⟩ := Index.exists_build items hc
  have hentry : ∀ i : Nat, x.items[i]? = items[i]?.map (x.entryOf c) := by
    intro i
    rw [hitems, List.getElem?_map]
    rfl
  have hfits : ∀ e ∈ x.items, e.Fits := by
    intro e he
    rw [hitems] at he
    obtain ⟨item, hitem, rfl⟩ := List.mem_map.1 he
    exact x.fits_entryOf c (hsize item hitem)
  obtain ⟨hits, hsearch, hsorted, hmade, hall⟩ := exists_search items c hq hfits
  have hhit : ∀ h ∈ hits, items[h.position]? = some h.item ∧ x.Meets q (x.entryOf c h.item) ∧
      (Scorer.ofQuery x q c).value? (x.entryOf c h.item) = some h.score := by
    intro h hh
    obtain ⟨hitem, e, he, hmeets, hvalue⟩ := hmade h hh
    rw [hentry, hitem] at he
    obtain rfl := Option.some.inj he
    exact ⟨hitem, hmeets, hvalue⟩
  refine ⟨x, hx, hne, hvalid, hits, hsearch, hsorted, fun i => ?_, fun h hh => ⟨(hhit h hh).1, (hhit h hh).2.2⟩⟩
  rw [List.mem_map]
  constructor
  · rintro ⟨h, hh, rfl⟩
    obtain ⟨hitem, hmeets, hvalue⟩ := hhit h hh
    exact ⟨h.item, hitem, hmeets, by rw [hvalue]; rfl⟩
  · rintro ⟨item, hitem, hmeets, hscore⟩
    exact hall i item _ hitem (by rw [hentry, hitem]; rfl) hmeets hscore

/-- **What a text query finds.**  For every collection whose texts fit into memory, every accepted configuration and every
query text with a term or a phrase, the hits are exactly the items that meet the query and in which it finds something,
each once, with its own position and score; they descend by score, and ascend by position among equal scores.  A
configuration with a greatest number of results gets so many of the first of them. -/
theorem search_ranked {ι : Type} [PatternCompiler] [Searchable ι] (items : List ι) (c : Config Rat) (t : Text)
    (hc : c.validate = .ok ()) (hq : (Query.parse t).terms ≠ [] ∨ (Query.parse t).phrases ≠ [])
    (hsize : ∀ item ∈ items, ∀ name v, attribute? item name = some v → v.toText.length < wordSize) :
    ∃ x, Index.build items c = .ok x ∧ ∃ hits : List (Hit ι Rat),
      search items x (.parse t) { c with maxResults := none } = .ok hits ∧
      (∀ i, i ∈ hits.map Hit.position ↔ ∃ item, items[i]? = some item ∧
        x.Meets (.parse t) (x.entryOf c item) ∧ (Scorer.ofQuery x (.parse t) c).Finds (x.entryOf c item)) ∧
      (hits.map Hit.position).Nodup ∧
      (∀ h ∈ hits, items[h.position]? = some h.item ∧
        (Scorer.ofQuery x (.parse t) c).value? (x.entryOf c h.item) = some h.score) ∧
      hits.Pairwise (fun a b => b.score < a.score ∨ a.score = b.score ∧ a.position < b.position) ∧
      ∀ k, search items x (.parse t) { c with maxResults := some k } = .ok (hits.take k) := by
  obtain ⟨x, hx, hne, hvalid, hits, hsearch, hsorted, hpositions, hvalues⟩ :=
    exists_search_of_validate items hc (Query.filterOnly_parse hq) hsize
  have hfinds : ∀ item : ι, ((Scorer.ofQuery x (.parse t) c).value? (x.entryOf c item)).isSome ↔
      (Scorer.ofQuery x (.parse t) c).Finds (x.entryOf c item) := fun item =>
    Scorer.value?_isSome_iff_finds (Scorer.positive_ofQuery hne hvalid _ c) (x.coherent_entryOf c item)
  have hperm := List.mergeSort_perm hits Hit.ranksBefore
  refine ⟨x, hx, hits.mergeSort Hit.ranksBefore, hsearch none, fun i => ?_, ?_, fun h hh => hvalues h (hperm.subset hh),
    Hit.pairwise_sorted hsorted, fun k => hsearch (some k)⟩
  · simp only [(hperm.map Hit.position).mem_iff, hpositions, hfinds]
  · rw [(hperm.map Hit.position).nodup_iff]
    exact List.pairwise_map.2 (hsorted.imp Nat.ne_of_lt)

def titled (title : Text) : Json := .object [("title".toList, .string title)]

def titles : Config Rat := { Config.default with fields := [⟨"title".toList, 1, true⟩] }

def summarized (title summary : Text) : Json := .object [("title".toList, .string title), ("summary".toList, .string summary)]

/-- A configuration that searches titles and summaries, the titles with twice the weight. -/
def articles {α : Type} [Scalar α] : Config α :=
  { Config.default with fields := [⟨"title".toList, Scalar.ofNat 2, true⟩, ⟨"summary".toList, Scalar.ofNat 1, true⟩] }

theorem length_attribute_lt {l : List (Text × Text)} (h : ∀ p ∈ l, p.2.length < wordSize) {name : Text} {v : FieldValue}
    (hv : attribute? (Json.object (l.map fun p => (p.1, .string p.2))) name = some v) : v.toText.length < wordSize := by
  obtain ⟨j, hj, rfl⟩ := Option.map_eq_some_iff.1 hv
  obtain ⟨m, hm, rfl⟩ := Option.map_eq_some_iff.1 hj
  obtain ⟨p, hp, rfl⟩ := List.mem_map.1 (List.mem_of_find?_eq_some hm)
  exact h p hp

theorem length_titles_lt {l : List Text} (h : ∀ t ∈ l, t.length < wordSize) : ∀ item ∈ l.map titled, ∀ name v,
    attribute? item name = some v → v.toText.length < wordSize := by
  intro item hitem name v hv
  obtain ⟨t, ht, rfl⟩ := List.mem_map.1 hitem
  exact length_attribute_lt (l := [("title".toList, t)]) (by simpa using h t ht) hv

theorem length_titled_lt {title : Text} (h : title.length < wordSize) : ∀ item ∈ [titled title], ∀ name v,
    attribute? item name = some v → v.toText.length < wordSize :=
  length_titles_lt (l := [title]) (by simpa using h)

theorem length_summarized_lt {title summary : Text} (h : title.length < wordSize) (h' : summary.length < wordSize) :
    ∀ item ∈ [summarized title summary], ∀ name v, attribute? item name = some v → v.toText.length < wordSize := by
  intro item hitem name v hv
  rw [List.mem_singleton.1 hitem] at hv
  exact length_attribute_lt (l := [("title".toList, title), ("summary".toList, summary)]) (by simpa using ⟨h, h'⟩) hv

/-- What `f` says of each hit of a query in a collection. -/
def eachHit {β : Type} (f : Hit Json Rat → β) (c : Config Rat) (items : List Json) (query : Text) : Option (List β) := do
  let x ← (Index.build items c).toOption
  let hits ← (search items x (.parse query) c).toOption
  return hits.map f

/-- The positions at which a query finds items. -/
def foundAmong (c : Config Rat) (items : List Json) (query : Text) : Option (List Nat) := eachHit Hit.position c items query

/-- Titles of which one is misspelt, one is about something else, and two have the word. -/
def library : List Json := ["Secruity news".toList, "Go".toList, "Rust security".toList, "Security".toList].map titled

theorem search_ranked_titles :
    ∃ x, Index.build library titles = .ok x ∧ ∃ hits : List (Hit Json Rat),
      search library x (.parse "security".toList) { titles with maxResults := none } = .ok hits ∧
      hits.map (fun h => (h.position, h.score)) = [(2, 1), (3, 1), (0, 7 / 8)] ∧
      search library x (.parse "security".toList) { titles with maxResults := some 2 } = .ok (hits.take 2) := by
  have hvalid : titles.validate = .ok () := by decide +kernel
  have hfields : titles.distinctFields = .ok titles.fields := by decide +kernel
  obtain ⟨x, hx, hits, hsearch, hall, -, hvalues, hsorted, hcap⟩ :=
    search_ranked library titles "security".toList hvalid (by decide +kernel) (length_titles_lt (by decide))
  obtain ⟨x, hx', hne, hpos, -⟩ := Index.exists_build library hvalid
  obtain rfl := Except.ok.inj (hx'.symm.trans hx)
  have hmeets : ∀ e, x.Meets (.parse "security".toList) e :=
    x.meets_of_terms (by decide +kernel) (by decide +kernel) (by decide +kernel)
  have hscores : library.map (fun item => (Scorer.ofQuery x (.parse "security".toList) titles).value?
      (x.entryOf titles item)) = [some (7 / 8), none, some 1, some 1] := by
    obtain rfl := Except.ok.inj (hx.symm.trans (Index.build_eq _ hvalid hfields))
    decide +kernel
  refine ⟨x, hx, hits, hsearch, Hit.ranking_of_scores hscores hsorted (fun i item hitem hscore => ?_) hvalues
    (by decide +kernel) (fun i s => ?_), hcap 2⟩
  · exact (hall i).2 ⟨item, hitem, hmeets _,
      (Scorer.value?_isSome_iff_finds (Scorer.positive_ofQuery hne hpos _ titles) (x.coherent_entryOf _ item)).1 hscore⟩
  · match i with
    | 0 | 1 | 2 | 3 => simp [eq_comm]
    | i + 4 => simp

end ContentSearch
