import ContentSearch.Engine
import ContentSearch.Proofs.Search.Ranking

/-!
# Engines over time

An engine is `Indexed` for a configuration and a collection when it holds both, and the index of the collection.  Every
call keeps it so, a rebuild for the new collection (`Indexed.after`), and hence every sequence of calls
(`Indexed.run`).  Whether there is an index at all is decided by the configuration alone (`Index.validate_of_build`), so that a
rebuild never fails (`Indexed.exists_rebuild`).
-/

namespace ContentSearch

theorem Index.validate_of_build {ι α : Type} [Searchable ι] [Scalar α] {items : List ι} {c : Config α} {x : Index α}
    (h : build items c = .ok x) : c.validate = .ok () := by
  obtain ⟨⟨⟩, hvalid, -⟩ := exists_of_bind_eq_ok h
  exact hvalid

namespace Engine

/-- What an engine is called for. -/
inductive Call (ι σ : Type) where
  | rebuild (items : List ι)
  | search (now : Int) (text : Text)
  | searchParsed (q : Query)
  | withHistory (store : σ)
  | recent (limit : Nat)
  | onHistory (f : History → σ → σ)
  | flush

/-- The collection after some calls: that of the last rebuild, or else the given one. -/
def lastItems {ι σ : Type} (items : List ι) : List (Call ι σ) → List ι
  | [] => items
  | .rebuild items' :: calls => lastItems items' calls
  | _ :: calls => lastItems items calls

variable {ι α σ : Type}

theorem eq_of_search [PatternCompiler] [Scalar α] {e e' : Engine ι α σ} {now : Int} {text : Text} {hits : List (Hit ι α)}
    (h : e.search now text = .ok (hits, e')) : ∃ recorder, e' = { e with recorder } := by
  unfold search at h
  dsimp only at h
  split at h
  · obtain rfl := (Prod.mk.inj (Except.ok.inj h)).2
    exact ⟨e.recorder, rfl⟩
  · obtain ⟨hits', -, h⟩ := exists_of_bind_eq_ok h
    obtain rfl := (Prod.mk.inj (Except.ok.inj h)).2
    exact ⟨_, rfl⟩

theorem eq_of_recent [Store σ] (e : Engine ι α σ) (limit : Nat) :
    ∃ recorder, (e.recent limit).2 = { e with recorder } := by
  unfold recent flush
  dsimp only
  split <;> exact ⟨_, rfl⟩

variable [Searchable ι] [Scalar α] [Store σ]

/-- The engine after a call. A call that fails leaves it as it is. -/
def after [PatternCompiler] (e : Engine ι α σ) : Call ι σ → Engine ι α σ
  | .rebuild items => (e.rebuild items).toOption.getD e
  | .search now text => ((e.search now text).toOption.map (·.2)).getD e
  | .searchParsed _ => e
  | .withHistory store => e.withHistory store
  | .recent limit => (e.recent limit).2
  | .onHistory f => e.onHistory f
  | .flush => e.flush

/-- The engine holds a configuration, a collection, and the index of that collection. -/
structure Indexed (c : Config α) (items : List ι) (e : Engine ι α σ) : Prop where
  config_eq : e.config = c
  items_eq : e.items = items
  build_eq : Index.build items c = .ok e.index

variable {c : Config α} {items : List ι} {e e' : Engine ι α σ}

omit [Store σ] in
theorem indexed_of_build (h : build items c = .ok e) : Indexed c items e := by
  unfold build at h
  cases hx : Index.build items c with
  | error err =>
    rw [hx] at h
    exact absurd h (by simp [Except.map])
  | ok x =>
    rw [hx] at h
    obtain rfl := Except.ok.inj h
    exact ⟨rfl, rfl, hx⟩

namespace Indexed

omit [Store σ] in
theorem exists_rebuild (h : Indexed c items e) (items' : List ι) :
    ∃ e', e.rebuild items' = .ok e' ∧ Indexed c items' e' := by
  obtain ⟨x, hx, -⟩ := Index.exists_build items' (Index.validate_of_build h.build_eq)
  refine ⟨{ e with items := items', index := x }, ?_, h.config_eq, rfl, hx⟩
  rw [rebuild, h.config_eq, hx]
  rfl

omit [Store σ] in
theorem withRecorder (h : Indexed c items e) (recorder : Option (Recorder σ)) : Indexed c items { e with recorder } :=
  ⟨h.config_eq, h.items_eq, h.build_eq⟩

/-- What one call leaves behind: a rebuild the index of the new collection, any other call the same index. -/
theorem after [PatternCompiler] (h : Indexed c items e) (call : Call ι σ) :
    Indexed c (lastItems items [call]) (e.after call) := by
  cases call with
  | rebuild items' =>
    obtain ⟨e', he', h'⟩ := h.exists_rebuild items'
    rw [Engine.after, he']
    exact h'
  | search now text =>
    rw [Engine.after]
    cases hsearch : e.search now text with
    | error fault => exact h
    | ok r =>
      obtain ⟨hits, e'⟩ := r
      obtain ⟨recorder, rfl⟩ := eq_of_search hsearch
      exact h.withRecorder recorder
  | searchParsed q => exact h
  | withHistory store => exact h.withRecorder _
  | recent limit =>
    obtain ⟨recorder, hr⟩ := eq_of_recent e limit
    rw [Engine.after, hr]
    exact h.withRecorder recorder
  | onHistory f => exact h.withRecorder _
  | flush => exact h.withRecorder _

/-- What a sequence of calls leaves behind, by induction on the calls. -/
theorem run [PatternCompiler] (h : Indexed c items e) (calls : List (Call ι σ)) :
    Indexed c (lastItems items calls) (calls.foldl Engine.after e) := by
  induction calls generalizing items e with
  | nil => exact h
  | cons call calls ih =>
    have hrest := ih (h.after call)
    rw [List.foldl_cons]
    cases call <;> exact hrest

omit [Store σ] in
theorem entries (h : Indexed c items e) : e.index.items = items.map (e.index.entryOf c) := by
  obtain ⟨x, hx, -, -, hitems⟩ := Index.exists_build items (Index.validate_of_build h.build_eq)
  obtain rfl : x = e.index := Except.ok.inj (hx.symm.trans h.build_eq)
  exact hitems

omit [Store σ] in
theorem searchParsed_eq [PatternCompiler] (h : Indexed c items e) (h' : Indexed c items e') (q : Query) :
    e.searchParsed q = e'.searchParsed q := by
  have hindex : e.index = e'.index := Except.ok.inj (h.build_eq.symm.trans h'.build_eq)
  rw [searchParsed, searchParsed, h.items_eq, h'.items_eq, h.config_eq, h'.config_eq, hindex]

end Indexed

/-- **The index is always that of the current items.**  After every sequence of calls, the engine of an accepted
configuration holds the index that its configuration has of its current items, an entry for each item in order; every
further rebuild succeeds; and a parsed query finds what it finds in a new engine for the items of the last rebuild. -/
theorem run_indexed [PatternCompiler] (h : build items c = .ok e) (calls : List (Call ι σ)) :
    let e' := calls.foldl after e
    e'.config = c ∧ e'.items = lastItems items calls ∧ Index.build e'.items c = .ok e'.index ∧
      e'.index.size = e'.size ∧
      (∀ (i : Nat) (item : ι), e'.items[i]? = some item → e'.index.items[i]? =
        some (.ofItem c.idField (e'.index.fields.map (·.name)) e'.index.filterFields item)) ∧
      (∀ items', ∃ e'', e'.rebuild items' = .ok e'') ∧
      ∃ fresh : Engine ι α σ, build (lastItems items calls) c = .ok fresh ∧
        ∀ q, e'.searchParsed q = fresh.searchParsed q := by
  intro e'
  have hrun : Indexed c (lastItems items calls) e' := (indexed_of_build h).run calls
  have hentries := hrun.entries
  have hfresh : build (lastItems items calls) c = .ok (⟨c, lastItems items calls, e'.index, none⟩ : Engine ι α σ) := by
    rw [build, hrun.build_eq]
    rfl
  refine ⟨hrun.config_eq, hrun.items_eq, ?_, ?_, ?_, ?_, _, hfresh, ?_⟩
  · rw [hrun.items_eq]
    exact hrun.build_eq
  · rw [Index.size, hentries, List.length_map, size, hrun.items_eq]
  · intro i item hitem
    rw [hrun.items_eq] at hitem
    rw [hentries, List.getElem?_map, hitem]
    rfl
  · intro items'
    obtain ⟨e'', he'', -⟩ := hrun.exists_rebuild items'
    exact ⟨e'', he''⟩
  · exact hrun.searchParsed_eq (indexed_of_build hfresh)

theorem run_indexed_titles :
    ∃ e : Engine Json Rat (Dictionary Text), build [titled "Rust guide".toList] titles = .ok e ∧
      let news := [titled "Rust news".toList, titled "Python news".toList]
      let e' := [.withHistory .empty, .search 1 "rust".toList, .rebuild news, .search 2 "news".toList].foldl after e
      e'.items = news ∧ Index.build news titles = .ok e'.index ∧ e'.index.size = 2 ∧
        ∃ fresh : Engine Json Rat (Dictionary Text), build news titles = .ok fresh ∧
          ∀ q, e'.searchParsed q = fresh.searchParsed q := by
  obtain ⟨x, hx, -⟩ := Index.exists_build [titled "Rust guide".toList] (c := titles) (by decide +kernel)
  have he : build [titled "Rust guide".toList] titles =
      .ok (⟨titles, [titled "Rust guide".toList], x, none⟩ : Engine Json Rat (Dictionary Text)) := by
    rw [build, hx]
    rfl
  refine ⟨_, he, ?_⟩
  intro news e'
  obtain ⟨-, hitems, hindex, hsize, -, -, hfresh⟩ :=
    run_indexed he [.withHistory .empty, .search 1 "rust".toList, .rebuild news, .search 2 "news".toList]
  have hnews : e'.items = news := hitems
  refine ⟨hnews, ?_, ?_, hfresh⟩
  · rw [← hnews]
    exact hindex
  · rw [hsize, size, hnews]
    rfl

end Engine
end ContentSearch
