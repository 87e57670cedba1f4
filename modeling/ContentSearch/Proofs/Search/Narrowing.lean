import ContentSearch.Proofs.Search.Ranking
import Mathlib.Data.List.Sort

/-!
# What further filters and exclusions do

* `Index.meets_iff_of_narrows`: an item meets a narrower query if it meets the query and what was added to it;
* `Hit.made?_of_narrows`: what is made of an item depends on the terms and phrases alone;
* `search_eq`: a search makes what it can of the items that meet the query, and ranks it;
* `exists_of_mem_search`: each of its hits is made of such an item;
* `search_narrows`: so filters and exclusions that are added to a query only take hits away.
-/

namespace ContentSearch

/-- The laws of numbers that ranking needs: `≤` is an order of the finite ones, with nothing beside it. -/
class Scalar.FiniteOrder (α : Type) [Scalar α] : Prop where
  le_trans : ∀ a b c : α, isFinite a → isFinite b → isFinite c → a ≤ b → b ≤ c → a ≤ c
  le_total : ∀ a b : α, isFinite a → isFinite b → a ≤ b ∨ b ≤ a

instance {α : Type} [Scalar α] [Scalar.LawfulOrder α] : Scalar.FiniteOrder α where
  le_trans _ _ _ _ _ _ := Scalar.LawfulOrder.le_trans
  le_total _ _ ha hb :=
    Scalar.LawfulOrder.le_total (Scalar.LawfulOrder.le_self_of_isFinite ha) (Scalar.LawfulOrder.le_self_of_isFinite hb)

/-- A query with the terms and phrases of another and all its exclusions and filters, and maybe with more of these. -/
structure Query.Narrows (q' q : Query) : Prop where
  terms : q'.terms = q.terms
  phrases : q'.phrases = q.phrases
  filterOnly : q'.filterOnly = q.filterOnly
  exclusions : q.exclusions ⊆ q'.exclusions
  filters : q.filters.toList ⊆ q'.filters.toList

/-! ## the items that are left -/

namespace Index

variable {α : Type}

/-- The entry of an item meets what a query asks for and another one does not: it has one of the values in the attribute of
each added filter, and no added exclusion occurs in any attribute. -/
structure MeetsAdded (x : Index α) (q q' : Query) (e : IndexedItem) : Prop where
  filters : ∀ name values, (name, values) ∈ q'.filters.toList → (name, values) ∉ q.filters.toList →
    ∃ r f v, x.resolve? name = some r ∧ e.entry? r = some f ∧ v ∈ values ∧ v ∈ f.values
  exclusions : ∀ t ∈ q'.exclusions, t ∉ q.exclusions → ∀ f ∈ e.fields ++ e.filterFields, ¬ t <:+: f.lower

theorem meets_iff_of_narrows {x : Index α} {q q' : Query} (hq : q'.Narrows q) {e : IndexedItem} :
    x.Meets q' e ↔ x.Meets q e ∧ x.MeetsAdded q q' e := by
  constructor
  · intro h
    refine ⟨⟨?_, ?_, ?_⟩, ⟨?_, ?_⟩⟩
    · exact fun name values hmem => h.filters name values (hq.filters hmem)
    · exact fun t ht => h.exclusions t (hq.exclusions ht)
    · exact fun t ht => h.phrases t (hq.phrases ▸ ht)
    · exact fun name values hmem _ => h.filters name values hmem
    · exact fun t ht _ => h.exclusions t ht
  · rintro ⟨h, hadded⟩
    refine ⟨?_, ?_, ?_⟩
    · intro name values hmem
      by_cases hold : (name, values) ∈ q.filters.toList
      · exact h.filters name values hold
      · exact hadded.filters name values hmem hold
    · intro t ht
      by_cases hold : t ∈ q.exclusions
      · exact h.exclusions t hold
      · exact hadded.exclusions t ht hold
    · exact fun t ht => h.phrases t (hq.phrases ▸ ht)

/-- The positions, among the first `count`, of the items that meet a query. -/
def met (x : Index α) (count : Nat) (q : Query) : List Nat :=
  match x.resolveFilters? q with
  | none => []
  | some filters => x.candidates count filters q

theorem mem_met_iff {x : Index α} {count i : Nat} {q : Query} :
    i ∈ x.met count q ↔ i < count ∧ ∃ e, x.items[i]? = some e ∧ x.Meets q e := by
  unfold met
  cases hfilters : x.resolveFilters? q with
  | none =>
    constructor
    · exact fun h => absurd h List.not_mem_nil
    · rintro ⟨-, e, -, hmeets⟩
      exact absurd hmeets (not_meets_of_resolveFilters? hfilters e)
  | some filters => exact mem_candidates_iff hfilters

theorem met_sorted (x : Index α) (count : Nat) (q : Query) : (x.met count q).Pairwise (· < ·) := by
  unfold met
  split
  · exact .nil
  · exact candidates_sorted ..

theorem met_of_narrows {x : Index α} {count : Nat} {q q' : Query} (hq : q'.Narrows q) {keep : Nat → Bool}
    (hkeep : ∀ i e, i < count → x.items[i]? = some e → (keep i = true ↔ x.MeetsAdded q q' e)) :
    x.met count q' = (x.met count q).filter keep := by
  refine (met_sorted ..).eq_of_mem_iff ((met_sorted ..).filter _) fun i => ?_
  rw [List.mem_filter, mem_met_iff, mem_met_iff]
  constructor
  · rintro ⟨hi, e, he, hmeets⟩
    obtain ⟨hold, hadded⟩ := (meets_iff_of_narrows hq).1 hmeets
    exact ⟨⟨hi, e, he, hold⟩, (hkeep i e hi he).2 hadded⟩
  · rintro ⟨⟨hi, e, he, hold⟩, hadded⟩
    exact ⟨hi, e, he, (meets_iff_of_narrows hq).2 ⟨hold, (hkeep i e hi he).1 hadded⟩⟩

end Index

/-! ## what is made of an item -/

section Hits

variable {ι α : Type} [Scalar α]

theorem Scorer.isFinite_of_value? {s : Scorer α} {e : IndexedItem} {v : α} (h : s.value? e = some v) :
    Scalar.isFinite v = true := by
  unfold value? at h
  dsimp only at h
  split at h
  · simp at h
  · split at h
    · next hfinite =>
      obtain rfl := Option.some.inj h
      exact (Bool.and_eq_true_iff.1 hfinite).1
    · simp at h

namespace Hit

/-- The hit that a query makes of the item at a position, if it makes one. -/
def made? [PatternCompiler] (items : List ι) (x : Index α) (q : Query) (c : Config α) (i : Nat) : Option (Hit ι α) :=
  if q.filterOnly then (unscored items i).toOption
  else (scored? items x.items (.ofQuery x q c) i).toOption.join

theorem made?_of_narrows [PatternCompiler] {q q' : Query} (hq : q'.Narrows q) (items : List ι) (x : Index α) (c : Config α) :
    made? items x q' c = made? items x q c := by
  obtain ⟨terms, phrases, exclusions, filters, filterOnly⟩ := q
  obtain ⟨terms', phrases', exclusions', filters', filterOnly'⟩ := q'
  obtain rfl : terms' = terms := hq.terms
  obtain rfl : phrases' = phrases := hq.phrases
  obtain rfl : filterOnly' = filterOnly := hq.filterOnly
  rfl

/-- What is to be known of the hits of one query. -/
structure IsHit (items : List ι) (q : Query) (i : Nat) (h : Hit ι α) : Prop where
  position : h.position = i
  item : items[i]? = some h.item
  finite : q.filterOnly = false → Scalar.isFinite h.score = true

variable {items : List ι} {x : Index α} {q : Query} {c : Config α} {i : Nat} {item : ι} {e : IndexedItem}

theorem unscored_eq_ok (hitem : items[i]? = some item) :
    unscored (α := α) items i = .ok ⟨item, i, Scalar.ofNat 1, [], []⟩ := by
  have hat : itemAt items i = .ok item := by rw [itemAt, hitem]
  rw [unscored, hat]
  rfl

theorem isHit_of_made? [PatternCompiler] (hitem : items[i]? = some item) (hentry : x.items[i]? = some e) (he : e.Fits)
    {h : Hit ι α} (hmade : made? items x q c i = some h) : IsHit items q i h := by
  unfold made? at hmade
  split at hmade
  · next hq =>
    rw [unscored_eq_ok hitem] at hmade
    obtain rfl := Option.some.inj hmade
    exact ⟨rfl, hitem, fun hq' => absurd hq (by simp [hq'])⟩
  · obtain ⟨o, ho, hvalue⟩ := exists_hit (.ofQuery x q c) hitem hentry he
    rw [ho] at hmade
    obtain rfl : o = some h := hmade
    obtain ⟨hposition, hitem⟩ := hvalue.place h rfl
    obtain ⟨e', -, hscore⟩ := hvalue.value
    exact ⟨hposition, hitem, fun _ => Scorer.isFinite_of_value? hscore⟩

end Hit

/-- The hits of a query before they are cut off, by what is made of the items that meet it. -/
def ranked (q : Query) (hits : List (Hit ι α)) : List (Hit ι α) :=
  if q.filterOnly then hits else hits.mergeSort Hit.ranksBefore

theorem mem_ranked_iff {q : Query} {hits : List (Hit ι α)} {h : Hit ι α} : h ∈ ranked q hits ↔ h ∈ hits := by
  unfold ranked
  split
  · exact Iff.rfl
  · exact (List.mergeSort_perm hits Hit.ranksBefore).mem_iff

/-- **A search makes what it can of the items that meet the query, and ranks it.** -/
theorem search_eq [PatternCompiler] (items : List ι) {x : Index α} (q : Query) (c : Config α) (hfits : ∀ e ∈ x.items, e.Fits) :
    search items x q { c with maxResults := none } =
      .ok (ranked q ((x.met items.length q).filterMap (Hit.made? items x q c))) := by
  have hentry : ∀ i ∈ x.met items.length q, ∃ item e, items[i]? = some item ∧ x.items[i]? = some e ∧ e.Fits := by
    intro i hi
    obtain ⟨hlt, e, he, -⟩ := Index.mem_met_iff.1 hi
    exact ⟨items[i], e, List.getElem?_eq_getElem hlt, he, hfits e (List.mem_of_getElem? he)⟩
  unfold Index.met at hentry ⊢
  cases hfilters : x.resolveFilters? q with
  | none =>
    rw [search, hfilters]
    simp [ranked]
  | some filters =>
    rw [hfilters] at hentry
    dsimp only at hentry ⊢
    have hscorer : Scorer.ofQuery x q { c with maxResults := none } = .ofQuery x q c := rfl
    cases hq : q.filterOnly with
    | true =>
      have hunscored : ∀ i ∈ x.candidates items.length filters q, ∃ h,
          Hit.unscored items i = .ok h ∧ Hit.made? items x q c i = some h := by
        intro i hi
        obtain ⟨item, -, hitem, -⟩ := hentry i hi
        refine ⟨_, Hit.unscored_eq_ok hitem, ?_⟩
        rw [Hit.made?, if_pos hq, Hit.unscored_eq_ok hitem]
        rfl
      obtain ⟨hits, hhits, hall⟩ := exists_mapM_eq_ok hunscored
      rw [ranked, if_pos hq, filterMap_of_forall₂ hall]
      simp only [search, hfilters, hq, hhits, bind, Except.bind, pure, Except.pure, if_true, takeAtMost]
    | false =>
      have hscored : ∀ i ∈ x.candidates items.length filters q,
          Hit.scored? items x.items (.ofQuery x q c) i = .ok (Hit.made? items x q c i) := by
        intro i hi
        obtain ⟨item, e, hitem, he, hfit⟩ := hentry i hi
        obtain ⟨o, ho, -⟩ := Hit.exists_hit (.ofQuery x q c) hitem he hfit
        rw [Hit.made?, if_neg (by simp [hq]), ho]
        rfl
      have hhits := mapM_eq_ok_map hscored
      rw [ranked, if_neg (by simp [hq])]
      simp only [search, hfilters, hq, hscorer, hhits, bind, Except.bind, pure, Except.pure, Bool.false_eq_true, if_false,
        takeAtMost, List.filterMap_map]
      rfl

theorem isHit_of_mem [PatternCompiler] {items : List ι} {x : Index α} {q : Query} {c : Config α} (hfits : ∀ e ∈ x.items, e.Fits)
    {i : Nat} (hi : i ∈ x.met items.length q) {h : Hit ι α} (hmade : Hit.made? items x q c i = some h) : h.IsHit items q i := by
  obtain ⟨hlt, e, he, -⟩ := Index.mem_met_iff.1 hi
  exact Hit.isHit_of_made? (List.getElem?_eq_getElem hlt) he (hfits e (List.mem_of_getElem? he)) hmade

/-- Every hit of a search is made of an item that meets the query. -/
theorem exists_of_mem_search [PatternCompiler] {items : List ι} {x : Index α} {q : Query} {c : Config α} {hits : List (Hit ι α)}
    (hsearch : search items x q c = .ok hits) {h : Hit ι α} (hh : h ∈ hits) :
    ∃ i ∈ x.met items.length q, (q.filterOnly = true ∧ Hit.unscored items i = .ok h) ∨
      (q.filterOnly = false ∧ Hit.scored? items x.items (.ofQuery x q c) i = .ok (some h)) := by
  unfold search at hsearch
  unfold Index.met
  cases hfilters : x.resolveFilters? q with
  | none =>
    rw [hfilters] at hsearch
    obtain rfl := Except.ok.inj hsearch
    exact absurd hh List.not_mem_nil
  | some filters =>
    rw [hfilters] at hsearch
    dsimp only at hsearch
    cases hq : q.filterOnly with
    | true =>
      rw [hq, if_pos rfl] at hsearch
      obtain ⟨all, hall, hsearch⟩ := exists_of_bind_eq_ok hsearch
      obtain rfl := Except.ok.inj hsearch
      obtain ⟨i, hi, hmade⟩ := exists_of_mem_right (forall₂_of_mapM_eq_ok hall) (mem_of_mem_takeAtMost hh)
      exact ⟨i, hi, .inl ⟨rfl, hmade⟩⟩
    | false =>
      rw [hq, if_neg Bool.false_ne_true] at hsearch
      obtain ⟨all, hall, hsearch⟩ := exists_of_bind_eq_ok hsearch
      obtain rfl := Except.ok.inj hsearch
      obtain ⟨o, ho, rfl⟩ := List.mem_filterMap.1 (List.mem_mergeSort.1 (mem_of_mem_takeAtMost hh))
      obtain ⟨i, hi, hmade⟩ := exists_of_mem_right (forall₂_of_mapM_eq_ok hall) ho
      exact ⟨i, hi, .inr ⟨rfl, hmade⟩⟩

/-- Filtering hits by their items commutes with ranking them. -/
theorem filter_ranked [Scalar.FiniteOrder α] {q : Query} {hits : List (Hit ι α)} (p : Hit ι α → Bool)
    (hfinite : q.filterOnly = false → ∀ h ∈ hits, Scalar.isFinite h.score = true)
    (hsorted : hits.Pairwise fun a b => a.position < b.position) :
    (ranked q hits).filter p = ranked q (hits.filter p) := by
  unfold ranked
  cases hq : q.filterOnly with
  | true => rfl
  | false =>
    have trans (a b d : Hit ι α) (ha : Scalar.isFinite a.score) (hb : Scalar.isFinite b.score)
        (hd : Scalar.isFinite d.score) (hab : a.ranksBefore b = true) (hbd : b.ranksBefore d = true) :
        a.ranksBefore d = true := by
      simp only [Hit.ranksBefore, decide_eq_true_eq] at hab hbd ⊢
      exact Scalar.FiniteOrder.le_trans _ _ _ hd hb ha hbd hab
    have total (a b : Hit ι α) (ha : Scalar.isFinite a.score) (hb : Scalar.isFinite b.score) :
        (a.ranksBefore b || b.ranksBefore a) = true := by
      simp only [Hit.ranksBefore, Bool.or_eq_true, decide_eq_true_eq]
      exact Scalar.FiniteOrder.le_total _ _ hb ha
    exact filter_mergeSort trans total (fun _ _ => Nat.lt_asymm) p (hfinite hq) hsorted

/-- What a narrower query finds with an index: the hits of the items that also meet what was added. -/
theorem search_of_narrows [PatternCompiler] [Scalar.FiniteOrder α] (items : List ι) {x : Index α} (c : Config α) {q q' : Query}
    (hq : q'.Narrows q) (hfits : ∀ e ∈ x.items, e.Fits) (keep : ι → Bool)
    (hkeep : ∀ (i : Nat) item e, items[i]? = some item → x.items[i]? = some e →
      (keep item = true ↔ x.MeetsAdded q q' e)) :
    ∃ hits, search items x q { c with maxResults := none } = .ok hits ∧
      (∀ h ∈ hits, items[h.position]? = some h.item) ∧
      search items x q' { c with maxResults := none } = .ok (hits.filter fun h => keep h.item) := by
  let hits := (x.met items.length q).filterMap (Hit.made? items x q c)
  have hmet : x.met items.length q' = (x.met items.length q).filter fun i => items[i]?.any keep := by
    refine Index.met_of_narrows hq fun i e hi he => ?_
    rw [List.getElem?_eq_getElem hi, Option.any_some]
    exact hkeep i _ e (List.getElem?_eq_getElem hi) he
  have hhits' : (x.met items.length q').filterMap (Hit.made? items x q' c) = hits.filter fun h => keep h.item := by
    rw [hmet, Hit.made?_of_narrows hq, List.filterMap_filter, List.filter_filterMap]
    refine List.filterMap_congr fun i hi => ?_
    cases hmade : Hit.made? items x q c i with
    | none => simp
    | some h =>
      rw [(isHit_of_mem hfits hi hmade).item, Option.any_some]
      rfl
  have hplace : ∀ h ∈ hits, h.IsHit items q h.position := by
    intro h hh
    obtain ⟨i, hi, hmade⟩ := List.mem_filterMap.1 hh
    have hhit := isHit_of_mem hfits hi hmade
    rwa [hhit.position]
  have hsorted : hits.Pairwise fun a b => a.position < b.position := by
    rw [List.pairwise_filterMap]
    refine (Index.met_sorted x items.length q).imp_of_mem fun {i j} hi hj hlt => ?_
    intro a ha b hb
    rw [(isHit_of_mem hfits hi ha).position, (isHit_of_mem hfits hj hb).position]
    exact hlt
  refine ⟨ranked q hits, search_eq items q c hfits, ?_, ?_⟩
  · exact fun h hh => (hplace h (mem_ranked_iff.1 hh)).item
  · have hranked : ranked q' (hits.filter fun h => keep h.item) = ranked q (hits.filter fun h => keep h.item) := by
      rw [ranked, ranked, hq.filterOnly]
    rw [search_eq items q' c hfits, hhits', hranked,
      filter_ranked _ (fun hq h hh => (hplace h hh).finite hq) hsorted]

end Hits

open Classical in
/-- **Filters and exclusions only take away.**  For every collection whose texts fit into memory, every accepted
configuration and every two queries of which one has all that the other has, and further filters or exclusions, the narrower
query finds those hits of the other whose items meet what was added, in the same order; each hit is the same, with its
position, score, excerpts and texts found. -/
theorem search_narrows {ι α : Type} [PatternCompiler] [Searchable ι] [Scalar α] [Scalar.FiniteOrder α] (items : List ι)
    (c : Config α) {q q' : Query} (hc : c.validate = .ok ()) (hq : q'.Narrows q)
    (hsize : ∀ item ∈ items, ∀ name v, attribute? item name = some v → v.toText.length < wordSize) :
    ∃ x, Index.build items c = .ok x ∧ ∃ hits : List (Hit ι α),
      search items x q { c with maxResults := none } = .ok hits ∧
      (∀ h ∈ hits, items[h.position]? = some h.item) ∧
      search items x q' { c with maxResults := none } =
        .ok (hits.filter fun h => x.MeetsAdded q q' (x.entryOf c h.item)) := by
  obtain ⟨x, hx, -, -, hitems⟩ := Index.exists_build items hc
  have hfits : ∀ e ∈ x.items, e.Fits := by
    intro e he
    rw [hitems] at he
    obtain ⟨item, hitem, rfl⟩ := List.mem_map.1 he
    exact x.fits_entryOf c (hsize item hitem)
  refine ⟨x, hx, search_of_narrows items c hq hfits (fun item => x.MeetsAdded q q' (x.entryOf c item)) ?_⟩
  intro i item e hitem he
  rw [hitems, List.getElem?_map, hitem] at he
  obtain rfl := Option.some.inj he
  exact decide_eq_true_iff

theorem narrows_excluding : (Query.parse "rust -guide".toList).Narrows (.parse "rust".toList) :=
  ⟨by decide +kernel, by decide +kernel, by decide +kernel, by decide +kernel, by decide +kernel⟩

open Classical in
theorem search_narrows_titles :
    ∃ x, Index.build [titled "Rust guide".toList, titled "Rust news".toList] titles = .ok x ∧ ∃ hits : List (Hit Json Rat),
      search [titled "Rust guide".toList, titled "Rust news".toList] x (.parse "rust".toList)
        { titles with maxResults := none } = .ok hits ∧
      hits.map (fun h => (h.position, h.score)) = [(0, 1), (1, 1)] ∧
      search [titled "Rust guide".toList, titled "Rust news".toList] x (.parse "rust -guide".toList)
          { titles with maxResults := none } =
        .ok (hits.filter fun h =>
          x.MeetsAdded (.parse "rust".toList) (.parse "rust -guide".toList) (x.entryOf titles h.item)) ∧
      (hits.filter fun h => x.MeetsAdded (.parse "rust".toList) (.parse "rust -guide".toList)
        (x.entryOf titles h.item)).map Hit.position = [1] := by
  have hvalid : titles.validate = .ok () := by decide +kernel
  have hfields : titles.distinctFields = .ok titles.fields := by decide +kernel
  have hsize : ∀ item ∈ [titled "Rust guide".toList, titled "Rust news".toList], ∀ name v, attribute? item name = some v →
      v.toText.length < wordSize :=
    length_titles_lt (l := ["Rust guide".toList, "Rust news".toList]) (by decide)
  obtain ⟨x, hx, hits, hsearch, -, hnarrow⟩ := search_narrows
    [titled "Rust guide".toList, titled "Rust news".toList] titles hvalid narrows_excluding hsize
  obtain ⟨x, hx', -, -, made, hmade, hsorted, hpositions, hvalues⟩ :=
    exists_search_of_validate [titled "Rust guide".toList, titled "Rust news".toList] (q := .parse "rust".toList) hvalid
      (by decide +kernel) hsize
  obtain rfl := Except.ok.inj (hx'.symm.trans hx)
  obtain rfl := Except.ok.inj ((hmade none).symm.trans hsearch)
  have hperm := List.mergeSort_perm made Hit.ranksBefore
  have hmeets : ∀ e, x.Meets (.parse "rust".toList) e :=
    x.meets_of_terms (by decide +kernel) (by decide +kernel) (by decide +kernel)
  have hx' := Except.ok.inj (hx.symm.trans (Index.build_eq _ hvalid hfields))
  have hscores : [titled "Rust guide".toList, titled "Rust news".toList].map (fun item =>
      (Scorer.ofQuery x (.parse "rust".toList) titles).value? (x.entryOf titles item)) = [some 1, some 1] := by
    rw [hx']
    decide +kernel
  refine ⟨x, hx, _, hsearch, Hit.ranking_of_scores hscores (Hit.pairwise_sorted hsorted) (fun i item hitem hscore => ?_)
    (fun h hh => hvalues h (hperm.subset hh)) (by decide +kernel) (fun i s => ?_), hnarrow, ?_⟩
  · exact (hperm.map Hit.position).mem_iff.2 ((hpositions i).2 ⟨item, hitem, hmeets _, hscore⟩)
  · match i with
    | 0 | 1 => simp [eq_comm]
    | i + 2 => simp
  · refine map_eq_of_eq_ok hnarrow ?_
    rw [hx']
    decide +kernel

end ContentSearch
