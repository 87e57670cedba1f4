import ContentSearch.Proofs.Highlight.Scan
import ContentSearch.Proofs.Match.Distances
import ContentSearch.Proofs.Search.Itemwise

/-!
# More tolerance never loses a result

A configuration loosens another one if it differs from it only in a threshold that is no lower and in fields that may be
misspelt where they might not be before.

* `Config.Loosens.distinctFields`: the fields of the two, without repetitions, correspond to each other;
* `Scorer.hits_within`: what is found in a field is found in it with more tolerance, and terms match no worse;
* `Scorer.value?_of_loosens`: so no item loses its score, and none gets a lower one;
* `search_of_loosens`: a search with more tolerance finds every item that it finds with less.
-/

namespace ContentSearch

open Scalar Scalar.LawfulOrder Scalar.LawfulArithmetic

section Definitions

variable {α : Type} [Scalar α]

/-- A field that is matched with more tolerance than another one, or with the same. -/
structure ScoredField.Loosens (f' f : ScoredField α) : Prop where
  name : f'.name = f.name
  weight : f'.weight = f.weight
  fuzzy : f.fuzzy = true → f'.fuzzy = true

/-- A configuration that differs from another one only in being more tolerant, or not at all. -/
structure Config.Loosens (c' c : Config α) : Prop where
  fields : List.Forall₂ (fun f f' => ScoredField.Loosens f' f) c.fields c'.fields
  fuzzyThreshold : c.fuzzyThreshold ≤ c'.fuzzyThreshold
  idField : c'.idField = c.idField
  filterFields : c'.filterFields = c.filterFields
  excerptLength : c'.excerptLength = c.excerptLength
  maxResults : c'.maxResults = c.maxResults
  historyKey : c'.historyKey = c.historyKey
  maxHistoryItems : c'.maxHistoryItems = c.maxHistoryItems

/-- Hits that are among others: the same phrases, and terms that match no better. -/
structure FieldHits.Within (h h' : FieldHits α) : Prop where
  terms : List.SublistForall₂ (fun a b => a.1 = b.1 ∧ a.2 ≤ b.2) h.terms h'.terms
  phrases : h'.phrases = h.phrases

/-- A scorer that differs from another one only in being more tolerant. -/
structure Scorer.Loosens (s' s : Scorer α) : Prop where
  query : s'.query = s.query
  fields : List.Forall₂ (fun f f' => ScoredField.Loosens f' f) s.fields s'.fields
  weights : ∀ f ∈ s.fields, f.Valid
  weights' : ∀ f ∈ s'.fields, f.Valid
  valid : s.matcher.Valid
  valid' : s'.matcher.Valid
  threshold : s.matcher.threshold ≤ s'.matcher.threshold
  denominator : s'.denominator = s.denominator

end Definitions

section Fields

variable {α : Type}

theorem ScoredField.names_of_loosens {fs fs' : List (ScoredField α)}
    (h : List.Forall₂ (fun f f' => Loosens f' f) fs fs') : fs'.map (·.name) = fs.map (·.name) := by
  induction h with
  | nil => rfl
  | cons hf _ ih => rw [List.map_cons, List.map_cons, hf.name, ih]

theorem ScoredField.weights_of_loosens {fs fs' : List (ScoredField α)}
    (h : List.Forall₂ (fun f f' => Loosens f' f) fs fs') : fs'.map (·.weight) = fs.map (·.weight) := by
  induction h with
  | nil => rfl
  | cons hf _ ih => rw [List.map_cons, List.map_cons, hf.weight, ih]

variable [Scalar α]

namespace Config

/-- Declarations that correspond to each other come to fields that do. -/
theorem distinctAfter_of_loosens {seen seen' l l' fs fs' : List (ScoredField α)}
    (hl : List.Forall₂ (fun f f' => ScoredField.Loosens f' f) l l')
    (hseen : List.Forall₂ (fun f f' => ScoredField.Loosens f' f) seen seen') (h : distinctAfter seen l = .ok fs)
    (h' : distinctAfter seen' l' = .ok fs') : List.Forall₂ (fun f f' => ScoredField.Loosens f' f) fs fs' := by
  induction hl generalizing seen seen' with
  | nil =>
    obtain rfl : seen = fs := Except.ok.inj h
    obtain rfl : seen' = fs' := Except.ok.inj h'
    exact hseen
  | @cons f f' l l' hf hl ih =>
    have hnames : f'.name ∈ seen'.map (·.name) ↔ f.name ∈ seen.map (·.name) := by
      rw [ScoredField.names_of_loosens hseen, hf.name]
    obtain ⟨-, ⟨g, hg, hname, -, hrest⟩ | ⟨hfresh, hrest⟩⟩ := valid_of_distinctAfter_cons h <;>
      obtain ⟨-, ⟨g', hg', hname', -, hrest'⟩ | ⟨hfresh', hrest'⟩⟩ := valid_of_distinctAfter_cons h'
    · exact ih hseen hrest hrest'
    · obtain ⟨g', hg', hname'⟩ := List.mem_map.1 (hnames.2 (List.mem_map.2 ⟨g, hg, hname⟩))
      exact absurd hname' (hfresh' g' hg')
    · obtain ⟨g, hg, hname⟩ := List.mem_map.1 (hnames.1 (List.mem_map.2 ⟨g', hg', hname'⟩))
      exact absurd hname (hfresh g hg)
    · exact ih (List.rel_append hseen (.cons hf .nil)) hrest hrest'

theorem Loosens.distinctFields {c c' : Config α} (h : c'.Loosens c) {fs fs' : List (ScoredField α)}
    (hfs : c.distinctFields = .ok fs) (hfs' : c'.distinctFields = .ok fs') :
    List.Forall₂ (fun f f' => ScoredField.Loosens f' f) fs fs' := by
  unfold Config.distinctFields at hfs hfs'
  split at hfs
  · exact absurd hfs (by simp)
  split at hfs'
  · exact absurd hfs' (by simp)
  exact distinctAfter_of_loosens h.fields .nil hfs hfs'

end Config

end Fields

/-! ## hits -/

variable {α : Type} [Scalar α]

namespace FieldHits.Within

variable {h h' : FieldHits α}

theorem found (hh : h.Within h') (hfound : h.found = true) : h'.found = true := by
  unfold FieldHits.found at hfound ⊢
  rw [hh.phrases]
  cases hterms : h.terms with
  | nil => simpa [hterms] using Or.inr (by simpa [hterms] using hfound)
  | cons t ts =>
    obtain ⟨t', ht', -⟩ := exists_of_sublistForall₂ hh.terms (hterms ▸ List.mem_cons_self)
    simp [List.isEmpty_eq_false_iff.2 (List.ne_nil_of_mem ht')]

theorem texts (hh : h.Within h') : h.texts ⊆ h'.texts := by
  intro t ht
  rcases List.mem_append.1 ht with ht | ht
  · obtain ⟨a, ha, rfl⟩ := List.mem_map.1 ht
    obtain ⟨b, hb, hab, -⟩ := exists_of_sublistForall₂ hh.terms ha
    exact List.mem_append_left _ (List.mem_map.2 ⟨b, hb, hab.symm⟩)
  · exact List.mem_append_right _ (hh.phrases ▸ ht)

end FieldHits.Within

namespace Scorer

variable [LawfulArithmetic α] {s s' : Scorer α}

theorem hits_within (hs : s'.Loosens s) {spec spec' : ScoredField α} (hspec : spec'.Loosens spec) (f : IndexedField) :
    (s.hits spec f).Within (s'.hits spec' f) := by
  unfold hits
  split
  · exact ⟨.nil, rfl⟩
  · refine ⟨?_, by rw [hs.query]⟩
    rw [hs.query]
    refine sublistForall₂_filterMap fun term _ t ht => ?_
    obtain ⟨v, hv, rfl⟩ := Option.map_eq_some_iff.1 ht
    obtain ⟨v', hv', hle⟩ := Matcher.matchQuality?_of_le hs.valid hs.valid' hs.threshold hspec.fuzzy hv
    exact ⟨(term, v'), by rw [hv']; rfl, rfl, hle⟩

theorem pos_of_valid {spec : ScoredField α} (h : spec.Valid) : ofNat 0 < spec.weight :=
  lt_of_not_le (ofNat_le_self 0) (le_self_of_isFinite h.finite) h.positive

theorem amounts_nonneg {spec : ScoredField α} (hspec : spec.Valid) (f : IndexedField) :
    ∀ a ∈ (s.hits spec f).amounts spec.weight, ofNat 0 ≤ a := by
  have hweight : ofNat 0 ≤ spec.weight := le_of_lt (pos_of_valid hspec)
  intro a ha
  rcases List.mem_append.1 ha with ha | ha
  · obtain ⟨t, ht, rfl⟩ := List.mem_map.1 ha
    have hquality : ofNat 0 ≤ t.2 := le_of_lt (pos_of_mem_terms ht)
    exact mul_nonneg hweight hquality (mul_le_mul hquality (le_self_right hquality) (pos_of_valid hspec) hspec.finite)
  · obtain ⟨t, -, rfl⟩ := List.mem_map.1 ha
    exact hweight

/-- What a field adds to a score has counterparts that are no less in what it adds with more tolerance. -/
theorem amounts_within (hs : s'.Loosens s) {spec spec' : ScoredField α} (hspec : spec'.Loosens spec) (hvalid : spec.Valid)
    (f : IndexedField) : List.SublistForall₂ (· ≤ ·) ((s.hits spec f).amounts spec.weight)
      ((s'.hits spec' f).amounts spec'.weight) := by
  obtain ⟨hterms, hphrases⟩ := hits_within hs hspec f
  obtain ⟨ts, hts, hsub⟩ := List.sublistForall₂_iff.1 hterms
  rw [FieldHits.amounts, FieldHits.amounts, hphrases, hspec.weight]
  refine sublistForall₂_append ?_ ?_
  · refine List.sublistForall₂_iff.2 ⟨ts.map (spec.weight * ·.2), ?_, hsub.map _⟩
    refine List.forall₂_map_left_iff.2 (List.forall₂_map_right_iff.2 ?_)
    have hpos : ∀ t ∈ (s.hits spec f).terms, ofNat 0 < t.2 := fun t => pos_of_mem_terms
    refine ((List.forall₂_and_left _ _).2 ⟨hpos, hts⟩).imp ?_
    rintro a b ⟨ha, -, hab⟩
    exact mul_le_mul (le_of_lt ha) hab (pos_of_valid hvalid) hvalid.finite
  · have hself : spec.weight ≤ spec.weight := le_self_of_isFinite hvalid.finite
    refine List.sublistForall₂_iff.2 ⟨_, ?_, List.Sublist.refl _⟩
    exact List.forall₂_map_left_iff.2 (List.forall₂_map_right_iff.2 (List.forall₂_same.2 fun _ _ => hself))

theorem fieldHits_of_loosens (hs : s'.Loosens s) (e : IndexedItem) :
    List.Forall₂ (fun x x' => x.1.name = x'.1.name ∧ x.2.2.Within x'.2.2 ∧
        List.SublistForall₂ (· ≤ ·) (x.2.2.amounts x.1.weight) (x'.2.2.amounts x'.1.weight))
      (s.fieldHits e) (s'.fieldHits e) := by
  refine List.forall₂_map_left_iff.2 (List.forall₂_map_right_iff.2 ?_)
  refine (forall₂_zip ((List.forall₂_and_left _ _).2 ⟨hs.weights, hs.fields⟩) e.fields).imp ?_
  rintro ⟨spec, f⟩ ⟨spec', f'⟩ ⟨⟨hvalid, hspec⟩, hf⟩
  obtain rfl : f = f' := hf
  exact ⟨hspec.name.symm, hits_within hs hspec f, amounts_within hs hspec hvalid f⟩

theorem total_nonneg {s : Scorer α} (hweights : ∀ f ∈ s.fields, f.Valid) (e : IndexedItem) :
    ∀ a ∈ (s.fieldHits e).flatMap fun (spec, _, h) => h.amounts spec.weight, ofNat 0 ≤ a := by
  intro a ha
  obtain ⟨⟨spec, f, h⟩, hx, ha⟩ := List.mem_flatMap.1 ha
  obtain ⟨hzip, rfl⟩ := mem_fieldHits_iff.1 hx
  exact amounts_nonneg (hweights spec (List.of_mem_zip hzip).1) f a ha

theorem total_of_loosens (hs : s'.Loosens s) (e : IndexedItem) : s.total e ≤ s'.total e := by
  refine foldl_add_le_foldl_add (sublistForall₂_flatMap ?_) (total_nonneg hs.weights e) (total_nonneg hs.weights' e)
    (ofNat_le_self 0) (ofNat_le_self 0)
  exact (fieldHits_of_loosens hs e).imp fun _ _ h => h.2.2

/-- **An item that scores scores at least as high with more tolerance.** -/
theorem value?_of_loosens (hs : s'.Loosens s) {e : IndexedItem} {v : α} (h : s.value? e = some v) :
    ∃ v', s'.value? e = some v' ∧ v ≤ v' := by
  obtain ⟨htotal, hdenominator, rfl, hfinite, hpos⟩ := value?_eq_some_iff.1 h
  have hle : s.total e ≤ s'.total e := total_of_loosens hs e
  have htotal₀ : ofNat 0 ≤ s.total e := le_foldl_add (ofNat_le_self 0) (total_nonneg hs.weights e)
  -- a positive quotient says that the denominator is a finite number
  have hquotient : ofNat 0 < s.total e / s.denominator := pos_of_clampUnit hfinite hpos
  have hself : s.denominator ≤ s.denominator := le_self_of_div (le_self_right (le_of_lt hquotient))
  have hdenominator₀ : ofNat 0 < s.denominator := lt_of_not_le (ofNat_le_self 0) hself hdenominator
  have hbounded : isFinite s.denominator = true := isFinite_of_div_pos htotal₀ (le_of_lt hdenominator₀) hquotient
  have hquotients : s.total e / s.denominator ≤ s'.total e / s.denominator :=
    div_le_div htotal₀ hle hdenominator₀ hbounded
  have hscores : clampUnit (s.total e / s.denominator) ≤ clampUnit (s'.total e / s.denominator) :=
    clampUnit_le_clampUnit (le_of_lt hquotient) hquotients
  refine ⟨clampUnit (s'.total e / s.denominator), value?_eq_some_iff.2 ⟨?_, ?_, ?_, ?_, ?_⟩, hscores⟩
  · exact fun hnonpos => htotal (le_trans hle hnonpos)
  · rw [hs.denominator]
    exact hdenominator
  · rw [hs.denominator]
  · exact isFinite_clampUnit (le_trans (le_of_lt hquotient) hquotients)
  · exact fun hnonpos => hpos (le_trans hscores hnonpos)

theorem matchedTerms_of_loosens (hs : s'.Loosens s) (e : IndexedItem) :
    (s.matchedTerms e).Sublist (s'.matchedTerms e) := by
  unfold matchedTerms
  rw [hs.query]
  refine List.monotone_filter_right _ fun t ht => ?_
  obtain ⟨x, hx, ht⟩ := List.mem_flatMap.1 (List.contains_iff_mem.1 ht)
  obtain ⟨x', hx', -, hwithin, -⟩ := exists_of_mem_left (fieldHits_of_loosens hs e) hx
  exact List.contains_iff_mem.2 (List.mem_flatMap.2 ⟨x', hx', hwithin.texts ht⟩)

theorem matchedNames_of_loosens (hs : s'.Loosens s) (e : IndexedItem) :
    (((s.fieldHits e).filter fun x => x.2.2.found).map (·.1.name)).Sublist
      (((s'.fieldHits e).filter fun x => x.2.2.found).map (·.1.name)) :=
  sublist_map_filter ((fieldHits_of_loosens hs e).imp fun _ _ h => ⟨h.1, h.2.1.found⟩)

end Scorer

/-! ## results -/

/-- A result that is no better than another one of the same item: its score is no higher, and it shows no term or field that
the other one does not show. -/
structure Hit.NoBetter {ι : Type} (h h' : Hit ι α) : Prop where
  position : h'.position = h.position
  item : h'.item = h.item
  score : h.score ≤ h'.score
  matchedTerms : h.matchedTerms.Sublist h'.matchedTerms
  matched : (h.matched.map (·.field)).Sublist (h'.matched.map (·.field))

/-- With more tolerance an item is shown if it is shown with less, and no worse. -/
theorem Scorer.score_of_loosens {s s' : Scorer α} [LawfulArithmetic α] (hs : s'.Loosens s) {e : IndexedItem} (he : e.Fits)
    {r : Scored α} (h : s.score e = .ok (some r)) :
    ∃ r', s'.score e = .ok (some r') ∧ r.score ≤ r'.score ∧ r.matchedTerms.Sublist r'.matchedTerms ∧
      (r.matched.map (·.field)).Sublist (r'.matched.map (·.field)) := by
  obtain ⟨o, ho, hvalue⟩ := s.exists_score he
  obtain rfl : o = some r := Except.ok.inj (ho.symm.trans h)
  obtain ⟨v', hv', hle⟩ := value?_of_loosens hs hvalue.symm
  obtain ⟨o', ho', hvalue'⟩ := s'.exists_score he
  obtain ⟨r', rfl, rfl⟩ := Option.map_eq_some_iff.1 (hvalue'.trans hv')
  obtain ⟨hnames, hterms⟩ := shown_of_score h
  obtain ⟨hnames', hterms'⟩ := shown_of_score ho'
  refine ⟨r', ho', hle, ?_, ?_⟩
  · rw [hterms, hterms']
    exact matchedTerms_of_loosens hs e
  · rw [hnames, hnames']
    exact matchedNames_of_loosens hs e

/-- What is made of an item with less tolerance is made of it with more, and no worse. -/
theorem Hit.made?_of_loosens {ι : Type} [PatternCompiler] [LawfulArithmetic α] {items : List ι} {x x' : Index α} {q : Query}
    {c c' : Config α} (hs : (Scorer.ofQuery x' q c').Loosens (.ofQuery x q c)) (hitems : x'.items = x.items)
    (hfits : ∀ e ∈ x.items, e.Fits) {i : Nat} {h : Hit ι α} (hmade : made? items x q c i = some h) :
    ∃ h', made? items x' q c' i = some h' ∧ h.NoBetter h' := by
  by_cases hq : q.filterOnly = true
  · refine ⟨h, ?_, rfl, rfl, ?_, .refl _, .refl _⟩
    · rw [made?, if_pos hq] at hmade ⊢
      exact hmade
    · rw [score_of_made? hq hmade]
      exact ofNat_le_self 1
  rw [made?, if_neg hq] at hmade ⊢
  have hscored : scored? items x.items (.ofQuery x q c) i = .ok (some h) := by
    cases ho : scored? items x.items (.ofQuery x q c) i with
    | error fault =>
      rw [ho] at hmade
      exact absurd hmade (by simp [Except.toOption])
    | ok o =>
      rw [ho] at hmade
      exact congrArg Except.ok hmade
  obtain ⟨e, item, r, he, hr, hitem, rfl⟩ := scored?_eq_some_iff.1 hscored
  obtain ⟨r', hr', hscore, hterms, hnames⟩ := Scorer.score_of_loosens hs (hfits e (List.mem_of_getElem? he)) hr
  let h' : Hit ι α := ⟨item, i, r'.score, r'.matched, r'.matchedTerms⟩
  have hscored' : scored? items x'.items (.ofQuery x' q c') i = .ok (some h') :=
    scored?_eq_some_iff.2 ⟨e, item, r', by rw [hitems, he], hr', hitem, rfl⟩
  exact ⟨h', by rw [hscored']; rfl, rfl, rfl, hscore, hterms, hnames⟩

namespace Index

/-- An index whose fields may be matched with more tolerance than those of another one. -/
structure Loosens (x' x : Index α) : Prop where
  fields : List.Forall₂ (fun f f' => ScoredField.Loosens f' f) x.fields x'.fields
  filterFields : x'.filterFields = x.filterFields

variable {ι : Type} [Searchable ι] {x x' : Index α} {c c' : Config α}

omit [Scalar α] in
theorem Loosens.names (hx : x'.Loosens x) : x'.fields.map (·.name) = x.fields.map (·.name) :=
  ScoredField.names_of_loosens hx.fields

theorem Loosens.entryOf (hx : x'.Loosens x) (hc : c'.Loosens c) (item : ι) : x'.entryOf c' item = x.entryOf c item := by
  rw [Index.entryOf, Index.entryOf, hc.idField, hx.names, hx.filterFields]

omit [Scalar α] in
theorem Loosens.resolveFilters? (hx : x'.Loosens x) (q : Query) : x'.resolveFilters? q = x.resolveFilters? q := by
  have hlocate : x'.locate? = x.locate? := by
    funext name
    have hnames (fs : List (ScoredField α)) : (fs.findIdx? fun f => sameName f.name name) =
        (fs.map (·.name)).findIdx? (sameName · name) := by rw [List.findIdx?_map]; rfl
    rw [locate?, locate?, hnames, hnames, hx.names, hx.filterFields]
  have hresolve : x'.resolve? = x.resolve? := by
    funext name
    rw [resolve?, resolve?, hlocate]
  rw [Index.resolveFilters?, Index.resolveFilters?, hresolve]

theorem Loosens.met (hx : x'.Loosens x) (hc : c'.Loosens c) (q : Query) (items : List ι) :
    (x'.covering c' items).met items.length q = (x.covering c items).met items.length q := by
  have hadmits : x'.admits c' q = x.admits c (ι := ι) q := by
    funext item
    rw [admits, admits, hx.resolveFilters?, hx.entryOf hc]
  rw [met_covering, met_covering, hadmits]

theorem Loosens.items (hx : x'.Loosens x) (hc : c'.Loosens c) (items : List ι) :
    (x'.covering c' items).items = (x.covering c items).items :=
  List.map_congr_left fun item _ => hx.entryOf hc item

/-- The scorers of two such indexes, of accepted configurations. -/
theorem Loosens.scorer [PatternCompiler] [LawfulArithmetic α] (hx : x'.Loosens x) (hloose : c'.Loosens c)
    (hc : c.validate = .ok ()) (hc' : c'.validate = .ok ()) (hvalid : ∀ f ∈ x.fields, f.Valid)
    (hvalid' : ∀ f ∈ x'.fields, f.Valid) (q : Query) :
    (Scorer.ofQuery x' q c').Loosens (.ofQuery x q c) := by
  obtain ⟨h₀, h₁⟩ := Config.threshold_of_validate hc
  obtain ⟨h₀', h₁'⟩ := Config.threshold_of_validate hc'
  have hweight : x'.totalWeight = x.totalWeight := by
    rw [totalWeight, totalWeight, Config.weightOf, Config.weightOf, ScoredField.weights_of_loosens hx.fields]
  refine ⟨rfl, hx.fields, hvalid, hvalid', Matcher.valid_ofThreshold h₀ h₁, Matcher.valid_ofThreshold h₀' h₁', ?_, ?_⟩
  · show clampUnit c.fuzzyThreshold ≤ clampUnit c'.fuzzyThreshold
    exact clampUnit_le_clampUnit h₀ hloose.fuzzyThreshold
  · show x'.totalWeight * _ = x.totalWeight * _
    rw [hweight]

end Index

/-- **More tolerance never loses a result.**  Let two accepted configurations differ only in that the second one has a
threshold that is no lower, and fields that may be misspelt where those of the first may. What a query finds in a collection
with the first one, if the number of results is not bounded, it finds with the second one too, each with a score that is
no lower, and with the terms and fields that match among those that match then. -/
theorem search_of_loosens [PatternCompiler] [LawfulArithmetic α] {ι : Type} [Searchable ι] (items : List ι) (q : Query)
    {c c' : Config α} (hc : c.validate = .ok ()) (hc' : c'.validate = .ok ()) (hloose : c'.Loosens c)
    (hsize : ∀ item ∈ items, ∀ name v, attribute? item name = some v → v.toText.length < wordSize) :
    ∃ x x' hits hits', Index.build items c = .ok x ∧ Index.build items c' = .ok x' ∧
      search items x q { c with maxResults := none } = .ok hits ∧
      search items x' q { c' with maxResults := none } = .ok hits' ∧
      ∀ h ∈ hits, ∃ h' ∈ hits', h.NoBetter h' := by
  obtain ⟨x, hfields, hfilters, hbuild⟩ := Index.exists_build_covering ι hc
  obtain ⟨x', hfields', hfilters', hbuild'⟩ := Index.exists_build_covering ι hc'
  have hx : List.Forall₂ (fun f f' => ScoredField.Loosens f' f) x.fields x'.fields :=
    hloose.distinctFields hfields hfields'
  have hloose' : x'.Loosens x := by
    refine ⟨hx, ?_⟩
    rw [hfilters, hfilters', ScoredField.names_of_loosens hx, hloose.filterFields]
  obtain ⟨-, hvalid, -⟩ := Config.valid_of_distinctFields hfields
  obtain ⟨-, hvalid', -⟩ := Config.valid_of_distinctFields hfields'
  have hscorer : (Scorer.ofQuery (x'.covering c' items) q c').Loosens (.ofQuery (x.covering c items) q c) :=
    hloose'.scorer hloose hc hc' hvalid hvalid' q
  have hfits : ∀ e ∈ (x.covering c items).items, e.Fits := Index.fits_covering hsize
  refine ⟨_, _, _, _, hbuild items, hbuild' items, search_covering x c q hsize, search_covering x' c' q hsize, ?_⟩
  intro h hh
  obtain ⟨i, hi, hmade⟩ := List.mem_filterMap.1 (mem_ranked_iff.1 hh)
  obtain ⟨h', hmade', hbetter⟩ := Hit.made?_of_loosens hscorer (hloose'.items hloose items) hfits hmade
  rw [← hloose'.met hloose] at hi
  exact ⟨h', mem_ranked_iff.2 (List.mem_filterMap.2 ⟨i, hi, hmade'⟩), hbetter⟩

def tolerantTitles : Config Float32 := { singleTitles with fuzzyThreshold := Scalar.ofNat 1 / Scalar.ofNat 2 }

theorem loosens_tolerantTitles : tolerantTitles.Loosens singleTitles where
  fields := .cons ⟨rfl, rfl, id⟩ .nil
  fuzzyThreshold := by decide +kernel
  idField := rfl
  filterFields := rfl
  excerptLength := rfl
  maxResults := rfl
  historyKey := rfl
  maxHistoryItems := rfl

/-- A misspelt word that is found, and another one that is found with more tolerance only. -/
theorem search_of_loosens_titles :
    ∃ x x' hits hits', Index.build [titled "Rust guide".toList] singleTitles = .ok x ∧
      Index.build [titled "Rust guide".toList] tolerantTitles = .ok x' ∧
      search [titled "Rust guide".toList] x (.parse "guidd rest".toList) { singleTitles with maxResults := none } =
        .ok hits ∧
      search [titled "Rust guide".toList] x' (.parse "guidd rest".toList) { tolerantTitles with maxResults := none } =
        .ok hits' ∧
      hits.map Hit.matchedTerms = [["guidd".toList]] ∧
      hits'.map Hit.matchedTerms = [["guidd".toList, "rest".toList]] ∧
      ∀ h ∈ hits, ∃ h' ∈ hits', h.NoBetter h' := by
  have hvalid : singleTitles.validate = .ok () := by decide +kernel
  have hvalid' : tolerantTitles.validate = .ok () := by decide +kernel
  have hfields : singleTitles.distinctFields = .ok singleTitles.fields := by decide +kernel
  have hfields' : tolerantTitles.distinctFields = .ok tolerantTitles.fields := by decide +kernel
  obtain ⟨x, x', hits, hits', hx, hx', hsearch, hsearch', hall⟩ :=
    search_of_loosens _ (.parse "guidd rest".toList) hvalid hvalid' loosens_tolerantTitles
      (length_titled_lt (by decide : "Rust guide".toList.length < wordSize))
  have hpattern : Pattern.ofQuery (.parse "guidd rest".toList) = ⟨["guidd".toList, "rest".toList], true⟩ :=
    Pattern.ofQuery_eq (Highlight.terms_of_pairwise (l := ["guidd".toList, "rest".toList]) (by decide +kernel)
      (by decide +kernel)) (by decide +kernel)
  refine ⟨x, x', hits, hits', hx, hx', hsearch, hsearch', map_eq_of_eq_ok hsearch ?_, map_eq_of_eq_ok hsearch' ?_, hall⟩
  · unfold search Scorer.ofQuery
    rw [hpattern, Except.ok.inj (hx.symm.trans (Index.build_eq _ hvalid hfields))]
    decide +kernel
  · unfold search Scorer.ofQuery
    rw [hpattern, Except.ok.inj (hx'.symm.trans (Index.build_eq _ hvalid' hfields'))]
    decide +kernel

end ContentSearch
