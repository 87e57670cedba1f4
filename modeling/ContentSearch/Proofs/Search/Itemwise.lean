import ContentSearch.Proofs.Config.Names
import ContentSearch.Proofs.Number.Single
import ContentSearch.Proofs.Search.Narrowing

/-!
# Items are judged one by one

The index of a collection is the list of the entries of its items under names that the configuration alone decides
(`Index.covering`), and what becomes of an item is decided by its entry: whether it is kept (`Index.met_covering`) and the
hit that is made of it (`Hit.made?_covering`).

* `made_covering`: the hits of a collection are those of each of its items alone, moved to where the item stands;
* `search_itemwise`: a search merges them by their scores.
-/

namespace ContentSearch

variable {ι α : Type} [Searchable ι]

/-- The hit of an item that stands at another position. -/
def Hit.moveTo (h : Hit ι α) (i : Nat) : Hit ι α := { h with position := i }

namespace Index

/-- The index of a collection under the names of another index. -/
def covering (x : Index α) (c : Config α) (items : List ι) : Index α := { x with items := items.map (x.entryOf c) }

theorem fits_covering {x : Index α} {c : Config α} {items : List ι}
    (hsize : ∀ item ∈ items, ∀ name v, attribute? item name = some v → v.toText.length < wordSize) :
    ∀ e ∈ (x.covering c items).items, e.Fits := by
  intro e he
  obtain ⟨item, hitem, rfl⟩ := List.mem_map.1 he
  exact x.fits_entryOf c (hsize item hitem)

theorem getElem?_covering {x : Index α} {c : Config α} {items : List ι} {i : Nat} {item : ι} (h : items[i]? = some item) :
    (x.covering c items).items[i]? = some (x.entryOf c item) := by
  show (items.map (x.entryOf c))[i]? = _
  rw [List.getElem?_map, h]
  rfl

/-- Whether an item meets a query, by its own entry. -/
def admits (x : Index α) (c : Config α) (q : Query) (item : ι) : Bool :=
  match x.resolveFilters? q with
  | none => false
  | some filters => keeps filters q (x.entryOf c item)

theorem met_covering (x : Index α) (c : Config α) (q : Query) (items : List ι) :
    (x.covering c items).met items.length q = (items.zipIdx.filter fun p => x.admits c q p.1).map (·.2) := by
  have hfilters : (x.covering c items).resolveFilters? q = x.resolveFilters? q := rfl
  unfold met admits
  rw [hfilters]
  cases x.resolveFilters? q with
  | none => simp
  | some filters =>
    have htake : (x.covering c items).items.take items.length = items.map (x.entryOf c) :=
      List.take_of_length_le (by simp [covering])
    dsimp only
    rw [candidates, htake, List.zipIdx_map, List.filter_map, List.map_map]
    rfl

variable [Scalar α]

theorem exists_build_covering (ι : Type) [Searchable ι] {c : Config α} (h : c.validate = .ok ()) :
    ∃ x : Index α, c.distinctFields = .ok x.fields ∧ x.filterFields = newNames (x.fields.map (·.name)) c.filterFields ∧
      ∀ items : List ι, build items c = .ok (x.covering c items) := by
  obtain ⟨fs, hfs, -⟩ := Config.exists_of_validate h
  let names := fs.map (·.name)
  exact ⟨⟨fs, newNames names c.filterFields, []⟩, hfs, rfl, fun items => build_eq items h hfs⟩

theorem exists_build_namedBy (ι : Type) [Searchable ι] {c : Config α} (h : c.validate = .ok ()) :
    ∃ x : Index α, x.NamedBy c ∧ ∀ items : List ι, build items c = .ok (x.covering c items) := by
  obtain ⟨x, hfields, hfilterFields, hbuild⟩ := exists_build_covering ι h
  exact ⟨x, ⟨hfields, hfilterFields⟩, hbuild⟩

end Index

variable [Scalar α]

/-- The hit that is made of an item in a collection is the one that is made of it alone. -/
theorem Hit.made?_covering [PatternCompiler] (x : Index α) (c : Config α) (q : Query) {items : List ι} {i : Nat} {item : ι}
    (h : items[i]? = some item) :
    made? items (x.covering c items) q c i = (made? [item] (x.covering c [item]) q c 0).map (·.moveTo i) := by
  unfold made?
  split
  · have halone : [item][0]? = some item := rfl
    rw [unscored_eq_ok h, unscored_eq_ok halone]
    rfl
  · have hscorer : Scorer.ofQuery (x.covering c [item]) q c = .ofQuery (x.covering c items) q c := rfl
    have hentry : itemAt (x.covering c items).items i = .ok (x.entryOf c item) :=
      itemAt_eq_ok_iff.2 (Index.getElem?_covering h)
    have hitem : itemAt items i = .ok item := itemAt_eq_ok_iff.2 h
    have hentry' : itemAt (x.covering c [item]).items 0 = .ok (x.entryOf c item) := rfl
    have hitem' : itemAt [item] 0 = .ok item := rfl
    rw [hscorer, scored?, scored?, hentry, hitem, hentry', hitem']
    simp only [bind, Except.bind]
    cases (Scorer.ofQuery (x.covering c items) q c).score (x.entryOf c item) with
    | error fault => rfl
    | ok r => cases r <;> rfl

/-- The hits of a query in a collection before they are ranked, in the order of the collection. -/
def made [PatternCompiler] (x : Index α) (c : Config α) (q : Query) (items : List ι) : List (Hit ι α) :=
  ((x.covering c items).met items.length q).filterMap (Hit.made? items (x.covering c items) q c)

theorem search_covering [PatternCompiler] (x : Index α) (c : Config α) (q : Query) {items : List ι}
    (hsize : ∀ item ∈ items, ∀ name v, attribute? item name = some v → v.toText.length < wordSize) :
    search items (x.covering c items) q { c with maxResults := none } = .ok (ranked q (made x c q items)) :=
  search_eq items q c (Index.fits_covering hsize)

theorem made_singleton [PatternCompiler] (x : Index α) (c : Config α) (q : Query) (item : ι) :
    made x c q [item] = if x.admits c q item then (Hit.made? [item] (x.covering c [item]) q c 0).toList else [] := by
  rw [made, Index.met_covering, List.zipIdx_singleton, List.filter_cons, List.filter_nil]
  split
  · rw [List.map_singleton, List.filterMap_cons]
    cases Hit.made? [item] (x.covering c [item]) q c 0 <;> rfl
  · rfl

theorem made_covering [PatternCompiler] (x : Index α) (c : Config α) (q : Query) (items : List ι) :
    made x c q items = items.zipIdx.flatMap fun (item, i) => (made x c q [item]).map (·.moveTo i) := by
  rw [made, Index.met_covering, List.filterMap_map, List.filterMap_filter, List.filterMap_eq_flatMap_toList]
  refine List.flatMap_congr fun p hp => ?_
  obtain ⟨item, i⟩ := p
  have hitem : items[i]? = some item := List.mem_zipIdx_iff_getElem?.1 hp
  dsimp only
  rw [made_singleton]
  split
  · rw [Function.comp_apply, Hit.made?_covering x c q hitem, Option.toList_map]
  · rfl

/-! ## ranking -/

omit [Searchable ι] in
theorem Hit.score_of_made? [PatternCompiler] {items : List ι} {x : Index α} {c : Config α} {q : Query} (hq : q.filterOnly = true)
    {i : Nat} {h : Hit ι α} (hmade : made? items x q c i = some h) : h.score = Scalar.ofNat 1 := by
  rw [made?, if_pos hq, unscored] at hmade
  cases hitem : itemAt items i with
  | error fault =>
    rw [hitem] at hmade
    exact absurd hmade (Option.some_ne_none _ ∘ Eq.symm)
  | ok item =>
    rw [hitem] at hmade
    rw [← Option.some.inj hmade]

/-- Hits that have one score stay where they are when they are sorted. -/
theorem ranked_made [PatternCompiler] [Scalar.LawfulOrder α] (x : Index α) (c : Config α) (q : Query) (items : List ι) :
    ranked q (made x c q items) = (made x c q items).mergeSort Hit.ranksBefore := by
  unfold ranked
  split
  · next hq =>
    refine (List.mergeSort_of_pairwise (List.pairwise_of_forall_mem_list fun a ha b hb => ?_)).symm
    obtain ⟨i, -, ha⟩ := List.mem_filterMap.1 ha
    obtain ⟨j, -, hb⟩ := List.mem_filterMap.1 hb
    rw [Hit.ranksBefore, Hit.score_of_made? hq ha, Hit.score_of_made? hq hb]
    exact decide_eq_true (Scalar.LawfulOrder.ofNat_le_ofNat le_rfl)
  · rfl

theorem ranked_singleton [PatternCompiler] (x : Index α) (c : Config α) (q : Query) (item : ι) :
    ranked q (made x c q [item]) = made x c q [item] := by
  have hsort : (made x c q [item]).mergeSort Hit.ranksBefore = made x c q [item] := by
    rw [made_singleton]
    split
    · cases Hit.made? [item] (x.covering c [item]) q c 0 <;> simp
    · simp
  unfold ranked
  split
  · rfl
  · exact hsort

/-- **Each item is judged alone.**  Under an accepted configuration, a query has one list of hits for each item: what it
finds in the collection of this item only.  The hits of any collection whose texts fit into memory are the lists of its
items, one after another, each moved to the position of its item, and sorted by descending score without changing the order
of equal scores. -/
theorem search_itemwise [PatternCompiler] [Scalar.LawfulOrder α] (c : Config α) (q : Query) (hc : c.validate = .ok ()) :
    ∃ alone : ι → List (Hit ι α),
      (∀ item, (∀ name v, attribute? item name = some v → v.toText.length < wordSize) →
        ∃ x, Index.build [item] c = .ok x ∧ search [item] x q { c with maxResults := none } = .ok (alone item)) ∧
      ∀ items : List ι,
        (∀ item ∈ items, ∀ name v, attribute? item name = some v → v.toText.length < wordSize) →
        ∃ x, Index.build items c = .ok x ∧ search items x q { c with maxResults := none } =
          .ok ((items.zipIdx.flatMap fun (item, i) => (alone item).map (·.moveTo i)).mergeSort Hit.ranksBefore) := by
  obtain ⟨x, -, -, hx⟩ := Index.exists_build_covering ι hc
  refine ⟨fun item => made x c q [item], fun item hsize => ⟨_, hx [item], ?_⟩, fun items hsize => ⟨_, hx items, ?_⟩⟩
  · rw [search_covering x c q (by simpa using hsize), ranked_singleton]
  · rw [search_covering x c q hsize, ranked_made, made_covering]

def singleTitles : Config Float32 := { Config.default with fields := [.ofName "title".toList] }

theorem search_itemwise_titles :
    ∃ alone : Json → List (Hit Json Float32), ∃ x,
      Index.build [titled "Rust guide".toList, titled "Rust".toList] singleTitles = .ok x ∧
      search [titled "Rust guide".toList, titled "Rust".toList] x (.parse "rust".toList)
          { singleTitles with maxResults := none } =
        .ok (((alone (titled "Rust guide".toList)).map (·.moveTo 0) ++
          (alone (titled "Rust".toList)).map (·.moveTo 1)).mergeSort Hit.ranksBefore) := by
  have hsize : ∀ item ∈ [titled "Rust guide".toList, titled "Rust".toList], ∀ name v, attribute? item name = some v →
      v.toText.length < wordSize :=
    length_titles_lt (l := ["Rust guide".toList, "Rust".toList]) (by decide)
  obtain ⟨alone, -, hall⟩ :=
    @search_itemwise Json Float32 _ _ _ _ singleTitles (.parse "rust".toList) (by decide +kernel)
  obtain ⟨x, hx, hsearch⟩ := hall _ hsize
  refine ⟨alone, x, hx, ?_⟩
  simpa using hsearch

end ContentSearch
