import ContentSearch.Proofs.Config.Names
import ContentSearch.Proofs.Highlight.Scan
import ContentSearch.Proofs.Search.Completion
import ContentSearch.Proofs.Search.Misspelt

/-!
# What a hit reports

A hit names the scored attributes that contribute to it, and the terms and phrases that were found in them. Both are read
off one relation between attributes and texts: `Config.FindsAt`, by the declarations of a configuration and the item alone.

* `Scorer.mem_texts_hits_iff`: what the query finds in a field;
* `Index.NamedBy.matchedTerms_entryOf`, `Index.NamedBy.names_entryOf`: what is reported of the entry of an item;
* `terms_reported`: a hit lists the terms and then the phrases that are found in it, and none of them twice unless it is
  asked for both as a term and as a phrase (`term_repeated`);
* `fields_reported`: and exactly the attributes in which something is found.
-/

namespace ContentSearch

variable {ι α : Type}

/-! ## what is found in a field -/

theorem FieldHits.found_iff {h : FieldHits α} : h.found = true ↔ ∃ u, u ∈ h.texts := by
  obtain ⟨terms, phrases⟩ := h
  cases terms <;> cases phrases <;> simp [found, texts]

variable [Scalar α]

/-- What a scored field finds of a query in an attribute that has text: a term that matches it, or a phrase that occurs in
it. -/
structure ScoredField.Finds (spec : ScoredField α) (m : Matcher α) (q : Query) (f : IndexedField) (u : Text) : Prop where
  text : f.text ≠ []
  found : u ∈ q.terms ∧ (m.matchQuality? u f.lower f.words spec.fuzzy).isSome ∨ u ∈ q.phrases ∧ u <:+: f.lower

namespace ScoredField

variable {spec : ScoredField α} {m : Matcher α} {q : Query} {f : IndexedField} {u : Text}

instance : Decidable (spec.Finds m q f u) :=
  decidable_of_iff (f.text ≠ [] ∧ (q.terms.contains u = true ∧ (m.matchQuality? u f.lower f.words spec.fuzzy).isSome ∨
      q.phrases.contains u = true ∧ u <:+: f.lower))
    ⟨fun h => ⟨h.1, by simpa using h.2⟩, fun h => ⟨h.text, by simpa using h.found⟩⟩

theorem Finds.mem (h : spec.Finds m q f u) : u ∈ q.terms ++ q.phrases :=
  List.mem_append.2 (h.found.imp And.left And.left)

/-- Name and weight of a field play no part in what it finds. -/
theorem Finds.of_fuzzy (h : spec.Finds m q f u) {spec' : ScoredField α} (hfuzzy : spec'.fuzzy = spec.fuzzy) :
    spec'.Finds m q f u := by
  refine ⟨h.text, ?_⟩
  rw [hfuzzy]
  exact h.found

theorem finds_of_isInfix (hf : f.Coherent) (hmem : u ∈ q.phrases) (hne : u ≠ []) (h : u <:+: f.lower) :
    spec.Finds m q f u := by
  refine ⟨fun htext => hne ?_, .inr ⟨hmem, h⟩⟩
  rw [hf.lower, htext] at h
  exact List.infix_nil.1 h

end ScoredField

namespace Scorer

variable {s : Scorer α} {e : IndexedItem}

theorem mem_texts_hits_iff {spec : ScoredField α} {f : IndexedField} {u : Text} :
    u ∈ (s.hits spec f).texts ↔ spec.Finds s.matcher s.query f u := by
  unfold hits
  by_cases hf : f.isEmpty = true
  · have htext : f.text = [] := by simpa [IndexedField.isEmpty] using hf
    rw [if_pos hf]
    exact ⟨fun h => absurd h List.not_mem_nil, fun h => absurd htext h.text⟩
  · have htext : f.text ≠ [] := by simpa [IndexedField.isEmpty] using hf
    rw [if_neg hf]
    have hfound : u ∈ FieldHits.texts ⟨s.query.terms.filterMap fun term =>
          (s.matcher.matchQuality? term f.lower f.words spec.fuzzy).map (term, ·), s.query.phrases.filter f.mentions⟩ ↔
        u ∈ s.query.terms ∧ (s.matcher.matchQuality? u f.lower f.words spec.fuzzy).isSome ∨
          u ∈ s.query.phrases ∧ u <:+: f.lower := by
      simp [FieldHits.texts, IndexedField.mentions, Text.occursIn_iff, Option.isSome_iff_exists]
    exact hfound.trans ⟨fun h => ⟨htext, h⟩, ScoredField.Finds.found⟩

end Scorer

/-- A text of a query is found in the attribute of an item that is scored under a name. -/
def Config.FindsAt [Searchable ι] (c : Config α) (q : Query) (item : ι) (name u : Text) : Prop :=
  ∃ spec ∈ c.fields, spec.name = name ∧ spec.Finds (.ofThreshold c.fuzzyThreshold) q (.ofAttribute item name) u

instance [Searchable ι] (c : Config α) (q : Query) (item : ι) (name u : Text) : Decidable (c.FindsAt q item name u) :=
  inferInstanceAs (Decidable (∃ spec ∈ c.fields, _))

/-! ## what is reported of an item -/

theorem Index.fieldHits_entryOf [PatternCompiler] [Searchable ι] (x : Index α) (c : Config α) (q : Query) (item : ι) :
    (Scorer.ofQuery x q c).fieldHits (x.entryOf c item) = x.fields.map fun spec =>
      (spec, .ofAttribute item spec.name, (Scorer.ofQuery x q c).hits spec (.ofAttribute item spec.name)) := by
  have hzip : (Scorer.ofQuery x q c).fields.zip (x.entryOf c item).fields = _ := x.zip_entryOf c item
  rw [Scorer.fieldHits, hzip, List.map_map]
  rfl

namespace Index.NamedBy

variable [Searchable ι] {x : Index α} {c : Config α} {q : Query} {item : ι}

theorem findsAt_iff [PatternCompiler] (hx : x.NamedBy c) {spec : ScoredField α} (hspec : spec ∈ x.fields) {u : Text} :
    c.FindsAt q item spec.name u ↔ u ∈ ((Scorer.ofQuery x q c).hits spec (.ofAttribute item spec.name)).texts := by
  obtain ⟨hsub, hall⟩ := Config.mem_of_distinctFields hx.fields
  rw [Scorer.mem_texts_hits_iff]
  constructor
  · rintro ⟨declared, hdeclared, hname, hfinds⟩
    obtain ⟨kept, hkept, hname', hfuzzy⟩ := hall declared hdeclared
    obtain rfl : kept = spec := List.inj_on_of_nodup_map hx.nodup hkept hspec (hname'.trans hname)
    exact hfinds.of_fuzzy hfuzzy
  · exact fun hfinds => ⟨spec, hsub hspec, rfl, hfinds⟩

/-- The terms and phrases that are reported of an item are those that are found in some scored attribute. -/
theorem matchedTerms_entryOf [PatternCompiler] (hx : x.NamedBy c) : (Scorer.ofQuery x q c).matchedTerms (x.entryOf c item) =
    (q.terms ++ q.phrases).filter fun u => ∃ spec ∈ c.fields, c.FindsAt q item spec.name u := by
  obtain ⟨hsub, hall⟩ := Config.mem_of_distinctFields hx.fields
  refine List.filter_congr fun u _ => ?_
  rw [Bool.eq_iff_iff, decide_eq_true_eq, List.contains_iff_mem, fieldHits_entryOf, List.mem_flatMap]
  constructor
  · rintro ⟨y, hy, hu⟩
    obtain ⟨spec, hspec, rfl⟩ := List.mem_map.1 hy
    exact ⟨spec, hsub hspec, (hx.findsAt_iff hspec).2 hu⟩
  · rintro ⟨declared, hdeclared, hfinds⟩
    obtain ⟨spec, hspec, hname, -⟩ := hall declared hdeclared
    rw [← hname] at hfinds
    exact ⟨_, List.mem_map_of_mem hspec, (hx.findsAt_iff hspec).1 hfinds⟩

theorem names_entryOf [PatternCompiler] (hx : x.NamedBy c) :
    (((Scorer.ofQuery x q c).fieldHits (x.entryOf c item)).filter fun y => y.2.2.found).map (·.1.name) =
      (c.fields.map (·.name)).eraseDups.filter fun name => ∃ u ∈ q.terms ++ q.phrases, c.FindsAt q item name u := by
  rw [fieldHits_entryOf, ← hx.names, List.filter_map, List.filter_map, List.map_map]
  refine congrArg _ (List.filter_congr fun spec hspec => ?_)
  rw [Bool.eq_iff_iff]
  simp only [Function.comp_apply, decide_eq_true_eq, FieldHits.found_iff, hx.findsAt_iff hspec]
  constructor
  · rintro ⟨u, hu⟩
    exact ⟨u, (Scorer.mem_texts_hits_iff.1 hu).mem, hu⟩
  · rintro ⟨u, -, hu⟩
    exact ⟨u, hu⟩

end Index.NamedBy

/-! ## hits -/

section Hits

variable [Searchable ι] {items : List ι} {c : Config α} {q : Query}

/-- **What a search reports.**  A search for a term or a phrase, of the index that an accepted configuration builds of its
items, reports of each hit the attributes in which something is found and the texts that are found; among these is each
phrase. -/
theorem exists_search_reported [PatternCompiler] (items : List ι) (hc : c.validate = .ok ()) (hq : q.filterOnly = false)
    (hsize : ∀ item ∈ items, ∀ name v, attribute? item name = some v → v.toText.length < wordSize) :
    ∃ x : Index α, x.NamedBy c ∧ Index.build items c = .ok (x.covering c items) ∧
      ∃ hits, search items (x.covering c items) q c = .ok hits ∧ ∀ h ∈ hits,
        (Scorer.ofQuery x q c).value? (x.entryOf c h.item) = some h.score ∧
        h.matched.map (·.field) = (c.fields.map (·.name)).eraseDups.filter
          (fun name => ∃ u ∈ q.terms ++ q.phrases, c.FindsAt q h.item name u) ∧
        h.matchedTerms = (q.terms ++ q.phrases).filter
          (fun u => ∃ spec ∈ c.fields, c.FindsAt q h.item spec.name u) ∧
        ∀ u ∈ q.phrases, u ≠ [] → ∃ spec ∈ c.fields, c.FindsAt q h.item spec.name u ∧
          u <:+: (IndexedField.ofAttribute h.item spec.name).lower := by
  obtain ⟨x, hx, hbuild⟩ := Index.exists_build_namedBy ι hc
  have hfits := x.fits_covering (c := c) hsize
  refine ⟨x, hx, hbuild items, _, search_eq_takeAtMost items q c hfits, fun h hh => ?_⟩
  obtain ⟨i, hi, ⟨honly, -⟩ | ⟨-, hmade⟩⟩ := exists_of_mem_search (search_eq_takeAtMost items q c hfits) hh
  · rw [hq] at honly
    exact absurd honly Bool.false_ne_true
  obtain ⟨e, item, r, he, hscore, hitem, rfl⟩ := Hit.scored?_eq_some_iff.1 hmade
  obtain rfl : e = x.entryOf c item := Option.some.inj (he.symm.trans (Index.getElem?_covering hitem))
  obtain ⟨-, e, he', hmeets⟩ := Index.mem_met_iff.1 hi
  obtain rfl : x.entryOf c item = e := Option.some.inj (he.symm.trans he')
  obtain ⟨o, ho, hvalue⟩ := (Scorer.ofQuery x q c).exists_score (hfits _ (List.mem_of_getElem? he))
  obtain rfl : o = some r := Except.ok.inj (ho.symm.trans hscore)
  obtain ⟨hmatched, hterms⟩ := Scorer.shown_of_score hscore
  refine ⟨hvalue.symm, hmatched.trans hx.names_entryOf, hterms.trans hx.matchedTerms_entryOf, fun u hu hne => ?_⟩
  obtain ⟨f, hf, hinfix⟩ := hmeets.phrases u hu
  obtain ⟨name, hname, rfl⟩ := List.mem_map.1 hf
  obtain ⟨spec, hspec, rfl⟩ := List.mem_map.1 hname
  have hdeclared := (Config.mem_of_distinctFields hx.fields).1 hspec
  have hfinds : spec.Finds (.ofThreshold c.fuzzyThreshold) q (.ofAttribute item spec.name) u :=
    ScoredField.finds_of_isInfix (IndexedField.coherent_ofAttribute item spec.name) hu hne hinfix
  exact ⟨spec, hdeclared, ⟨spec, hdeclared, rfl, hfinds⟩, hinfix⟩

end Hits

/-- **A field that has a phrase is shown** if its item meets the query, as long as the results are not bounded. -/
theorem exists_match_of_phrase {ι : Type} [PatternCompiler] [Searchable ι] (items : List ι) {c : Config Rat} {q : Query}
    (hc : c.validate = .ok ()) (hq : q.filterOnly = false)
    (hsize : ∀ item ∈ items, ∀ name v, attribute? item name = some v → v.toText.length < wordSize) :
    ∃ x, Index.build items c = .ok x ∧ ∃ hits : List (Hit ι Rat),
      search items x q { c with maxResults := none } = .ok hits ∧
      ∀ (i : Nat) item p name, items[i]? = some item → x.Meets q (x.entryOf c item) → p ∈ q.phrases → p ≠ [] →
        name ∈ c.fields.map (·.name) → p <:+: (IndexedField.ofAttribute item name).lower →
        ∃ h ∈ hits, h.item = item ∧ ∃ m ∈ h.matched, m.field = name := by
  obtain ⟨x₀, hnamed, hbuild, hits, hsearch, hreported⟩ :=
    exists_search_reported items (c := { c with maxResults := none }) hc hq hsize
  obtain ⟨x, hbuild', hne, hvalid, made, hmade, -, hpositions, hitems⟩ := exists_search_of_validate items hc hq hsize
  obtain rfl := Except.ok.inj (hbuild'.symm.trans hbuild)
  obtain rfl := Except.ok.inj ((hmade none).symm.trans hsearch)
  refine ⟨_, hbuild', _, hsearch, fun i item p name hitem hmeets hp hne' hname hinfix => ?_⟩
  obtain ⟨spec, hspec, rfl⟩ := List.mem_map.1 hname
  obtain ⟨kept, hkept, hkeptname, -⟩ := (Config.mem_of_distinctFields hnamed.fields).2 spec hspec
  have hfinds : spec.Finds (.ofThreshold c.fuzzyThreshold) q (.ofAttribute item spec.name) p :=
    ScoredField.finds_of_isInfix (IndexedField.coherent_ofAttribute item spec.name) hp hne' hinfix
  have hzip : (kept, IndexedField.ofAttribute item spec.name) ∈ x₀.fields.zip (x₀.entryOf c item).fields :=
    Index.mem_zip_entryOf_iff.2 ⟨hkept, by rw [hkeptname]⟩
  have hvalue := (Scorer.value?_isSome_iff_finds (Scorer.positive_ofQuery hne hvalid q c)
    (Index.coherent_entryOf _ c item)).2 (.inr ⟨p, hp, kept, _, hzip, hfinds.text, hinfix⟩)
  obtain ⟨h, hh, rfl⟩ := List.mem_map.1 ((hpositions i).2 ⟨item, hitem, hmeets, hvalue⟩)
  obtain rfl := Option.some.inj ((hitems h hh).1.symm.trans hitem)
  have hh := (List.mergeSort_perm made Hit.ranksBefore).mem_iff.2 hh
  obtain ⟨-, hmatched, -⟩ := hreported h hh
  refine ⟨h, hh, rfl, List.mem_map.1 (hmatched ▸ List.mem_filter.2 ⟨List.mem_eraseDups.2 hname, ?_⟩)⟩
  exact decide_eq_true ⟨p, List.mem_append_right _ hp, spec, hspec, rfl, hfinds⟩

/-- **Which terms and phrases a hit reports.**  For every collection whose texts fit into memory, every accepted
configuration and every query text with a term or a phrase, each hit lists the terms and then the phrases of the query, in
their order, that are found in some scored attribute of its item that is not empty. Each phrase is among them, so that a text
is listed twice exactly if it is asked for both as a term and as a phrase. -/
theorem terms_reported {ι α : Type} [PatternCompiler] [Searchable ι] [Scalar α] (items : List ι) (c : Config α) (t : Text)
    (hc : c.validate = .ok ()) (hq : (Query.parse t).terms ≠ [] ∨ (Query.parse t).phrases ≠ [])
    (hsize : ∀ item ∈ items, ∀ name v, attribute? item name = some v → v.toText.length < wordSize) :
    ∃ x, Index.build items c = .ok x ∧ ∃ hits : List (Hit ι α), search items x (.parse t) c = .ok hits ∧ ∀ h ∈ hits,
      h.matchedTerms = ((Query.parse t).terms ++ (Query.parse t).phrases).filter
        (fun u => ∃ spec ∈ c.fields, c.FindsAt (.parse t) h.item spec.name u) ∧
      (Query.parse t).phrases ⊆ h.matchedTerms ∧
      (h.matchedTerms.Nodup ↔ ∀ u ∈ (Query.parse t).terms, u ∉ (Query.parse t).phrases) := by
  have hwell := (Query.parse_wellFormed t).toValid
  obtain ⟨x, -, hbuild, hits, hsearch, hall⟩ := exists_search_reported items hc (Query.filterOnly_parse hq) hsize
  refine ⟨_, hbuild, hits, hsearch, fun h hh => ?_⟩
  obtain ⟨-, -, hterms, hphrases⟩ := hall h hh
  have hfound : ∀ u ∈ (Query.parse t).phrases, ∃ spec ∈ c.fields, c.FindsAt (.parse t) h.item spec.name u := by
    intro u hu
    obtain ⟨hne, -⟩ := Query.lower_of_mem_parse (List.mem_append_right _ hu)
    obtain ⟨spec, hspec, hfinds, -⟩ := hphrases u hu hne
    exact ⟨spec, hspec, hfinds⟩
  refine ⟨hterms, fun u hu => ?_, ?_⟩
  · rw [hterms]
    exact List.mem_filter.2 ⟨List.mem_append_right _ hu, decide_eq_true (hfound u hu)⟩
  · rw [hterms]
    exact nodup_filter_append_iff hwell.terms_nodup hwell.phrases_nodup fun u hu => decide_eq_true (hfound u hu)

/-- The terms and phrases that are reported of each hit in a collection of one title. -/
def reportedIn (title query : Text) : Option (List (List Text)) := eachHit Hit.matchedTerms titles [titled title] query

theorem terms_reported_guide :
    ∃ x, Index.build [titled "Rust guide".toList] titles = .ok x ∧ ∃ hits : List (Hit Json Rat),
      search [titled "Rust guide".toList] x (.parse "guide html \"rust\"".toList) titles = .ok hits ∧
      reportedIn "Rust guide".toList "guide html \"rust\"".toList = some [["guide".toList, "rust".toList]] ∧
      ∀ h ∈ hits, h.matchedTerms.Nodup := by
  obtain ⟨x, hx, hits, hsearch, hall⟩ :=
    terms_reported [titled "Rust guide".toList] titles "guide html \"rust\"".toList (by decide +kernel) (by decide +kernel)
      (length_titled_lt (by decide))
  have hpattern : Pattern.ofQuery (.parse "guide html \"rust\"".toList) =
      ⟨["guide".toList, "html".toList, "rust".toList], true⟩ :=
    Pattern.ofQuery_eq (Highlight.terms_of_pairwise (l := ["guide".toList, "html".toList, "rust".toList, "rust".toList])
      (by decide +kernel) (by decide +kernel)) (by decide +kernel)
  refine ⟨x, hx, hits, hsearch, ?_, fun h hh => ?_⟩
  · unfold reportedIn eachHit search Scorer.ofQuery
    rw [hpattern]
    decide +kernel
  · obtain ⟨-, -, hnodup⟩ := hall h hh
    exact hnodup.2 (by decide +kernel)

/-- **A text that is asked for as a term and as a phrase is reported twice.** -/
theorem term_repeated :
    (Query.parse "rust \"rust\"".toList).terms = ["rust".toList] ∧
      (Query.parse "rust \"rust\"".toList).phrases = ["rust".toList] ∧
      reportedIn "rust".toList "rust \"rust\"".toList = some [["rust".toList, "rust".toList]] := by
  have hpattern : Pattern.ofQuery (.parse "rust \"rust\"".toList) = ⟨["rust".toList], true⟩ :=
    Pattern.ofQuery_eq (Highlight.terms_of_pairwise (l := ["rust".toList, "rust".toList, "rust".toList])
      (by decide +kernel) (by decide +kernel)) (by decide +kernel)
  refine ⟨by decide +kernel, by decide +kernel, ?_⟩
  unfold reportedIn eachHit search Scorer.ofQuery
  rw [hpattern]
  decide +kernel

/-- **Which attributes a hit reports.**  For every collection whose texts fit into memory, every accepted configuration and
every query text with a term or a phrase, each hit shows, once each and in the order of their declarations, exactly the
scored attributes of its item that are not empty and in which a term or a phrase is found. There is at least one, and each
phrase occurs in one of them. -/
theorem fields_reported {ι α : Type} [PatternCompiler] [Searchable ι] [Scalar α] [Scalar.LawfulOrder α] (items : List ι)
    (c : Config α) (t : Text) (hc : c.validate = .ok ()) (hq : (Query.parse t).terms ≠ [] ∨ (Query.parse t).phrases ≠ [])
    (hsize : ∀ item ∈ items, ∀ name v, attribute? item name = some v → v.toText.length < wordSize) :
    ∃ x, Index.build items c = .ok x ∧ ∃ hits : List (Hit ι α), search items x (.parse t) c = .ok hits ∧ ∀ h ∈ hits,
      h.matched.map (·.field) = (c.fields.map (·.name)).eraseDups.filter (fun name =>
        ∃ u ∈ (Query.parse t).terms ++ (Query.parse t).phrases, c.FindsAt (.parse t) h.item name u) ∧
      (h.matched.map (·.field)).Nodup ∧ h.matched ≠ [] ∧
      ∀ p ∈ (Query.parse t).phrases, ∃ m ∈ h.matched, p <:+: (IndexedField.ofAttribute h.item m.field).lower := by
  obtain ⟨x, hx, hbuild, hits, hsearch, hall⟩ := exists_search_reported items hc (Query.filterOnly_parse hq) hsize
  refine ⟨_, hbuild, hits, hsearch, fun h hh => ?_⟩
  obtain ⟨hvalue, hfields, -, hphrases⟩ := hall h hh
  refine ⟨hfields, ?_, ?_, fun p hp => ?_⟩
  · rw [hfields]
    exact (nodup_eraseDups _).filter _
  · obtain ⟨⟨spec, f, found⟩, hfound, htrue⟩ := Scorer.exists_found_of_value? hvalue
    obtain ⟨name, hname⟩ : ∃ name, name ∈ h.matched.map (·.field) := by
      rw [hfields, ← hx.names_entryOf]
      exact ⟨_, List.mem_map_of_mem (List.mem_filter.2 ⟨hfound, htrue⟩)⟩
    rintro hnil
    rw [hnil] at hname
    exact List.not_mem_nil hname
  · obtain ⟨hne, -⟩ := Query.lower_of_mem_parse (List.mem_append_right _ hp)
    obtain ⟨spec, hspec, hfinds, hinfix⟩ := hphrases p hp hne
    have hmem : spec.name ∈ h.matched.map (·.field) := by
      rw [hfields, List.mem_filter, List.mem_eraseDups, decide_eq_true_eq]
      exact ⟨List.mem_map_of_mem hspec, p, List.mem_append_right _ hp, hfinds⟩
    obtain ⟨m, hm, hname⟩ := List.mem_map.1 hmem
    exact ⟨m, hm, by rw [hname]; exact hinfix⟩

/-- Both are found in the title, and nothing is found in the summary. -/
theorem fields_reported_guide :
    ∃ x, Index.build [summarized "Rust guide".toList "A book".toList] articles = .ok x ∧ ∃ hits : List (Hit Json Rat),
      search [summarized "Rust guide".toList "A book".toList] x (.parse "guide \"rust\"".toList) articles = .ok hits ∧
      hits.map Hit.matched = [[⟨"title".toList, "Rust guide".toList, [(0, 4), (5, 10)]⟩]] ∧
      ∀ h ∈ hits, ["title".toList] = ["title".toList, "summary".toList].filter (fun name =>
          ∃ u ∈ ["guide".toList, "rust".toList],
            (articles : Config Rat).FindsAt (.parse "guide \"rust\"".toList) h.item name u) ∧
        ∃ m ∈ h.matched, "rust".toList <:+: (IndexedField.ofAttribute h.item m.field).lower := by
  have hvalid : (articles : Config Rat).validate = .ok () := by decide +kernel
  have hfields : (articles : Config Rat).distinctFields = .ok articles.fields := by decide +kernel
  have hnames : ((articles : Config Rat).fields.map (·.name)).eraseDups = ["title".toList, "summary".toList] := by
    decide +kernel
  have hasked : (Query.parse "guide \"rust\"".toList).terms ++ (Query.parse "guide \"rust\"".toList).phrases =
      ["guide".toList, "rust".toList] := by decide +kernel
  obtain ⟨x, hx, hits, hsearch, hall⟩ :=
    fields_reported [summarized "Rust guide".toList "A book".toList] articles "guide \"rust\"".toList hvalid
      (by decide +kernel) (length_summarized_lt (by decide) (by decide))
  have hpattern : Pattern.ofQuery (.parse "guide \"rust\"".toList) = ⟨["guide".toList, "rust".toList], true⟩ :=
    Pattern.ofQuery_eq (Highlight.terms_of_pairwise (l := ["guide".toList, "rust".toList, "rust".toList])
      (by decide +kernel) (by decide +kernel)) (by decide +kernel)
  have hmatched : hits.map Hit.matched = [[⟨"title".toList, "Rust guide".toList, [(0, 4), (5, 10)]⟩]] := by
    refine map_eq_of_eq_ok hsearch ?_
    unfold search Scorer.ofQuery
    rw [hpattern, Except.ok.inj (hx.symm.trans (Index.build_eq _ hvalid hfields))]
    decide +kernel
  refine ⟨x, hx, hits, hsearch, hmatched, fun h hh => ?_⟩
  obtain ⟨hreported, -, -, hphrases⟩ := hall h hh
  have hone : h.matched = [⟨"title".toList, "Rust guide".toList, [(0, 4), (5, 10)]⟩] :=
    List.mem_singleton.1 (hmatched ▸ List.mem_map_of_mem hh)
  rw [hone, hnames, hasked] at hreported
  exact ⟨hreported, hphrases _ (by decide +kernel)⟩

end ContentSearch
