import ContentSearch.Proofs.Match.Distances
import ContentSearch.Proofs.Search.Itemwise
import Mathlib.Algebra.BigOperators.Ring.List
import Mathlib.Algebra.Order.BigOperators.Group.List

/-!
# Scores of perfect matches

Over exact rationals the total of an item is a sum over the fields, each adding its weight times what the query finds in it
(`FieldHits.share`).  A field gives at most as much as the query asks for, and exactly that if the match is perfect
(`Scorer.share_eq_iff`); the denominator is what it would come to if every field gave that much.

* `Scorer.total_le_denominator`, `Scorer.total_eq_denominator_iff`: so the total is at most the denominator;
* `search_score`: the score of every result is the quotient of the two, between 0 and 1, and 1 for perfect matches only.
-/

namespace ContentSearch

/-! ## sums -/

theorem sum_map_eq_sum_map_iff {β : Type} {l : List β} {f g : β → Rat} (h : ∀ a ∈ l, f a ≤ g a) :
    (l.map f).sum = (l.map g).sum ↔ ∀ a ∈ l, f a = g a := by
  induction l with
  | nil => simp
  | cons a l ih =>
    obtain ⟨ha, hl⟩ := List.forall_mem_cons.1 h
    have hsum : (l.map f).sum ≤ (l.map g).sum := List.sum_le_sum hl
    rw [List.map_cons, List.map_cons, List.sum_cons, List.sum_cons, add_eq_add_iff_eq_and_eq ha hsum, ih hl,
      List.forall_mem_cons]

theorem sum_filterMap_eq {β : Type} (f : β → Option Rat) (l : List β) :
    (l.filterMap f).sum = (l.map fun a => (f a).getD 0).sum := by
  induction l with
  | nil => rfl
  | cons a l ih =>
    rw [List.map_cons, List.sum_cons, ← ih]
    cases ha : f a with
    | none => rw [List.filterMap_cons_none ha, Option.getD_none, zero_add]
    | some b => rw [List.filterMap_cons_some ha, List.sum_cons, Option.getD_some]

theorem sum_map_one {β : Type} (l : List β) : (l.map fun _ => (1 : Rat)).sum = l.length := by
  rw [List.map_const', List.sum_replicate, nsmul_one]

/-! ## fields -/

namespace Matcher

variable {m : Matcher Rat} {term lower : Text} {words : List Text} {fuzzy : Bool}

theorem matchQuality?_le_one (hm : m.Valid) {v : Rat} (h : m.matchQuality? term lower words fuzzy = some v) : v ≤ 1 := by
  obtain ⟨d, hd, rfl, -⟩ := matchQuality?_eq_some_iff.1 h
  have hd₀ : 0 ≤ d := (fieldDistance?_bounds hm hd).1
  show (1 : Rat) - d ≤ 1
  linarith

theorem matchQuality?_eq_one_iff :
    m.matchQuality? term lower words fuzzy = some 1 ↔ m.fieldDistance? term lower words fuzzy = some 0 := by
  rw [matchQuality?_eq_some_iff]
  constructor
  · rintro ⟨d, hd, hone, -⟩
    have hzero : d = 0 := by
      have hone : (1 : Rat) = 1 - d := hone
      linarith
    rw [hd, hzero]
  · intro h
    exact ⟨0, h, (sub_zero (1 : Rat)).symm, one_pos⟩

end Matcher

/-- What a field adds to the total for each unit of its weight. -/
def FieldHits.share (h : FieldHits Rat) : Rat := (h.terms.map (·.2)).sum + h.phrases.length

theorem FieldHits.sum_amounts (h : FieldHits Rat) (weight : Rat) : (h.amounts weight).sum = weight * h.share := by
  have hphrases : (h.phrases.map fun _ => weight).sum = weight * h.phrases.length := by
    rw [List.map_const', List.sum_replicate, nsmul_eq_mul, mul_comm]
  have hterms : (h.terms.map (weight * ·.2)).sum = weight * (h.terms.map (·.2)).sum := List.sum_map_mul_left ..
  rw [amounts, List.sum_append, hphrases, share, mul_add]
  congr 1

namespace Scorer

variable {s : Scorer Rat} {spec : ScoredField Rat} {f : IndexedField}

/-- A field has text, contains every phrase and matches every term at distance 0. -/
structure Perfect (s : Scorer Rat) (spec : ScoredField Rat) (f : IndexedField) : Prop where
  text : f.text ≠ []
  phrases : ∀ t ∈ s.query.phrases, t <:+: f.lower
  terms : ∀ t ∈ s.query.terms, s.matcher.fieldDistance? t f.lower f.words spec.fuzzy = some 0

theorem hits_of_text (hf : f.text ≠ []) : s.hits spec f =
    { terms := s.query.terms.filterMap fun term =>
        (s.matcher.matchQuality? term f.lower f.words spec.fuzzy).map (term, ·)
      phrases := s.query.phrases.filter f.mentions } := by
  rw [hits, if_neg]
  simpa [IndexedField.isEmpty] using hf

/-- The qualities of the matches of the terms, 0 where there is none. -/
def quality (s : Scorer Rat) (spec : ScoredField Rat) (f : IndexedField) (term : Text) : Rat :=
  (s.matcher.matchQuality? term f.lower f.words spec.fuzzy).getD 0

theorem quality_le_one (hs : s.matcher.Valid) (term : Text) : s.quality spec f term ≤ 1 := by
  unfold quality
  cases h : s.matcher.matchQuality? term f.lower f.words spec.fuzzy with
  | none => exact zero_le_one
  | some v => exact Matcher.matchQuality?_le_one hs h

theorem quality_eq_one_iff {term : Text} : s.quality spec f term = 1 ↔
    s.matcher.fieldDistance? term f.lower f.words spec.fuzzy = some 0 := by
  rw [← Matcher.matchQuality?_eq_one_iff, quality]
  cases s.matcher.matchQuality? term f.lower f.words spec.fuzzy <;> simp

theorem share_hits (hf : f.text ≠ []) : (s.hits spec f).share =
    (s.query.terms.map (s.quality spec f)).sum + ((s.query.phrases.filter f.mentions).length : Rat) := by
  have hqualities : ((s.query.terms.filterMap fun term =>
      (s.matcher.matchQuality? term f.lower f.words spec.fuzzy).map (term, ·)).map (·.2)) =
        s.query.terms.filterMap fun term => s.matcher.matchQuality? term f.lower f.words spec.fuzzy := by
    rw [List.map_filterMap]
    refine List.filterMap_congr fun term _ => ?_
    rw [Option.map_map]
    exact Option.map_id'
  rw [hits_of_text hf, FieldHits.share]
  dsimp only
  rw [hqualities, sum_filterMap_eq]
  rfl

theorem share_of_empty (hf : f.text = []) : (s.hits spec f).share = 0 := by
  rw [hits, if_pos (by simpa [IndexedField.isEmpty] using hf)]
  simp [FieldHits.share]

theorem sum_quality_le (hs : s.matcher.Valid) : (s.query.terms.map (s.quality spec f)).sum ≤ s.query.terms.length := by
  rw [← sum_map_one]
  exact List.sum_le_sum fun term _ => quality_le_one hs term

theorem share_le (hs : s.matcher.Valid) (spec : ScoredField Rat) (f : IndexedField) :
    (s.hits spec f).share ≤ s.query.componentCount := by
  by_cases hf : f.text = []
  · rw [share_of_empty hf]
    exact Nat.cast_nonneg _
  · have hphrases : ((s.query.phrases.filter f.mentions).length : Rat) ≤ s.query.phrases.length :=
      Nat.cast_le.2 (List.length_filter_le ..)
    rw [share_hits hf, Query.componentCount, Nat.cast_add]
    exact add_le_add (sum_quality_le hs) hphrases

/-- **A field gives what the query asks for if and only if it matches perfectly.** -/
theorem share_eq_iff (hs : s.matcher.Valid) (hq : 0 < s.query.componentCount) :
    (s.hits spec f).share = s.query.componentCount ↔ s.Perfect spec f := by
  by_cases hf : f.text = []
  · rw [share_of_empty hf]
    exact ⟨fun h => absurd h.symm (Nat.cast_ne_zero.2 hq.ne'), fun h => absurd hf h.text⟩
  · have hphrases : ((s.query.phrases.filter f.mentions).length : Rat) ≤ s.query.phrases.length :=
      Nat.cast_le.2 (List.length_filter_le ..)
    have hterms_iff : (s.query.terms.map (s.quality spec f)).sum = s.query.terms.length ↔
        ∀ t ∈ s.query.terms, s.matcher.fieldDistance? t f.lower f.words spec.fuzzy = some 0 := by
      rw [← sum_map_one, sum_map_eq_sum_map_iff fun term _ => quality_le_one hs term]
      exact forall₂_congr fun _ _ => quality_eq_one_iff
    have hphrases_iff : ((s.query.phrases.filter f.mentions).length : Rat) = s.query.phrases.length ↔
        ∀ t ∈ s.query.phrases, t <:+: f.lower := by
      rw [Nat.cast_inj, List.length_filter_eq_length_iff]
      exact forall₂_congr fun _ _ => Text.occursIn_iff
    rw [share_hits hf, Query.componentCount, Nat.cast_add, add_eq_add_iff_eq_and_eq (sum_quality_le hs) hphrases,
      hterms_iff, hphrases_iff]
    exact ⟨fun h => ⟨hf, h.2, h.1⟩, fun h => ⟨h.terms, h.phrases⟩⟩

/-! ## totals -/

theorem total_eq_sum (s : Scorer Rat) (e : IndexedItem) :
    s.total e = ((s.fields.zip e.fields).map fun p => p.1.weight * (s.hits p.1 p.2).share).sum := by
  rw [total_eq_sum_amounts, List.flatMap, List.sum_flatten, fieldHits, List.map_map, List.map_map]
  congr 1
  exact List.map_congr_left fun p _ => FieldHits.sum_amounts ..

/-- The denominator is what the fields of an entry come to if each gives what the query asks for. -/
structure Measures (s : Scorer Rat) (e : IndexedItem) : Prop where
  weights : ∀ f ∈ s.fields, 0 < f.weight
  matcher : s.matcher.Valid
  asked : 0 < s.query.componentCount
  denominator : s.denominator = ((s.fields.zip e.fields).map fun p => p.1.weight * (s.query.componentCount : Rat)).sum

variable {e : IndexedItem}

theorem weighted_le (hs : s.Measures e) :
    ∀ p ∈ s.fields.zip e.fields, p.1.weight * (s.hits p.1 p.2).share ≤ p.1.weight * s.query.componentCount := by
  intro p hp
  have hweight : 0 < p.1.weight := hs.weights p.1 (List.of_mem_zip hp).1
  exact mul_le_mul_of_nonneg_left (share_le hs.matcher ..) hweight.le

theorem total_le_denominator (hs : s.Measures e) : s.total e ≤ s.denominator := by
  rw [total_eq_sum, hs.denominator]
  exact List.sum_le_sum (weighted_le hs)

theorem total_eq_denominator_iff (hs : s.Measures e) :
    s.total e = s.denominator ↔ ∀ p ∈ s.fields.zip e.fields, s.Perfect p.1 p.2 := by
  rw [total_eq_sum, hs.denominator, sum_map_eq_sum_map_iff (weighted_le hs)]
  refine forall₂_congr fun p hp => ?_
  have hweight : 0 < p.1.weight := hs.weights p.1 (List.of_mem_zip hp).1
  rw [mul_right_inj' hweight.ne', share_eq_iff hs.matcher hs.asked]

/-- What the score of an entry is before it is moved between 0 and 1. -/
def quotient (s : Scorer Rat) (e : IndexedItem) : Rat := s.total e / s.denominator

theorem quotient_of_value? (hs : s.Measures e) {v : Rat} (h : s.value? e = some v) :
    0 < s.quotient e ∧ s.quotient e ≤ 1 ∧ Scalar.clampUnit (s.quotient e) = s.quotient e ∧ v = s.quotient e ∧
      (s.quotient e = 1 ↔ ∀ p ∈ s.fields.zip e.fields, s.Perfect p.1 p.2) := by
  obtain ⟨htotal, hdenominator, rfl, -⟩ := value?_eq_some_iff.1 h
  have htotal : 0 < s.total e := not_le.1 htotal
  have hdenominator : 0 < s.denominator := not_le.1 hdenominator
  have hpos : 0 < s.quotient e := div_pos htotal hdenominator
  have hone : s.quotient e ≤ 1 := div_le_one_of_le₀ (total_le_denominator hs) hdenominator.le
  have hclamp : Scalar.clampUnit (s.quotient e) = s.quotient e := Scalar.clampUnit_eq_self hpos.le hone
  refine ⟨hpos, hone, hclamp, hclamp, ?_⟩
  rw [← total_eq_denominator_iff hs, quotient, div_eq_one_iff_eq hdenominator.ne']

theorem measures_ofQuery {ι : Type} [PatternCompiler] [Searchable ι] {x : Index Rat} {c : Config Rat} (hc : c.validate = .ok ())
    (hvalid : ∀ f ∈ x.fields, f.Valid) {q : Query} (hq : 0 < q.componentCount) (item : ι) :
    (ofQuery x q c).Measures (x.entryOf c item) := by
  obtain ⟨h₀, h₁⟩ := Config.threshold_of_validate hc
  refine ⟨fun f hf => not_le.1 (hvalid f hf).positive, Matcher.valid_ofThreshold h₀ h₁, hq, ?_⟩
  have hzip : (ofQuery x q c).fields.zip (x.entryOf c item).fields = _ := x.zip_entryOf c item
  show Config.weightOf x.fields * ((max q.componentCount 1 : Nat) : Rat) = _
  rw [Config.weightOf_eq_sum, max_eq_left hq, ← List.sum_map_mul_right, hzip, List.map_map]
  rfl

end Scorer

/-- **The score of a result.**  For every collection whose texts fit into memory, every accepted configuration and every
query text with a term or a phrase, what the total of a result is divided by leaves a number between 0, which is excluded,
and 1, so that moving it there does not change it; and it is 1 exactly if every scored field of the item has text, contains
every phrase and matches every term at distance 0. -/
theorem search_score {ι : Type} [PatternCompiler] [Searchable ι] (items : List ι) (c : Config Rat) (t : Text)
    (hc : c.validate = .ok ()) (hq : (Query.parse t).terms ≠ [] ∨ (Query.parse t).phrases ≠ [])
    (hsize : ∀ item ∈ items, ∀ name v, attribute? item name = some v → v.toText.length < wordSize) :
    ∃ x, Index.build items c = .ok x ∧ ∃ hits : List (Hit ι Rat), search items x (.parse t) c = .ok hits ∧
      ∀ h ∈ hits, x.items[h.position]? = some (x.entryOf c h.item) ∧
        0 < (Scorer.ofQuery x (.parse t) c).quotient (x.entryOf c h.item) ∧
        (Scorer.ofQuery x (.parse t) c).quotient (x.entryOf c h.item) ≤ 1 ∧
        Scalar.clampUnit ((Scorer.ofQuery x (.parse t) c).quotient (x.entryOf c h.item)) =
          (Scorer.ofQuery x (.parse t) c).quotient (x.entryOf c h.item) ∧
        h.score = (Scorer.ofQuery x (.parse t) c).quotient (x.entryOf c h.item) ∧
        ((Scorer.ofQuery x (.parse t) c).quotient (x.entryOf c h.item) = 1 ↔
          ∀ spec ∈ x.fields, (Scorer.ofQuery x (.parse t) c).Perfect spec (.ofAttribute h.item spec.name)) := by
  obtain ⟨x, hfields, -, hbuild⟩ := Index.exists_build_covering ι hc
  obtain ⟨-, hvalid, -⟩ := Config.valid_of_distinctFields hfields
  have hasked : 0 < (Query.parse t).componentCount := by
    rw [Query.componentCount, Nat.add_pos_iff_pos_or_pos, List.length_pos_iff, List.length_pos_iff]
    exact hq
  obtain ⟨hits, hsearch, -, hmade, -⟩ := exists_search items c (Query.filterOnly_parse hq) (x.fits_covering hsize)
  refine ⟨_, hbuild items, _, hsearch c.maxResults, fun h hh => ?_⟩
  have hmem : h ∈ hits := (List.mergeSort_perm hits Hit.ranksBefore).subset (mem_of_mem_takeAtMost hh)
  obtain ⟨hitem, e, he, -, hvalue⟩ := hmade h hmem
  have hentry : (x.covering c items).items[h.position]? = some (x.entryOf c h.item) := Index.getElem?_covering hitem
  obtain rfl : e = x.entryOf c h.item := Option.some.inj (he.symm.trans hentry)
  obtain ⟨hpos, hone, hclamp, hscore, hperfect⟩ :=
    Scorer.quotient_of_value? (Scorer.measures_ofQuery hc hvalid hasked h.item) hvalue
  refine ⟨hentry, hpos, hone, hclamp, hscore, hperfect.trans ?_⟩
  show (∀ p ∈ x.fields.zip _, _) ↔ _
  rw [x.zip_entryOf, List.forall_mem_map]
  rfl

/-- The title is found as it is, and the summary is not. -/
theorem search_score_titles :
    ∃ x, Index.build [summarized "Rust guide".toList "A book".toList] articles = .ok x ∧ ∃ hits : List (Hit Json Rat),
      search [summarized "Rust guide".toList "A book".toList] x (.parse "rust".toList) articles = .ok hits ∧
      hits.map (fun h => (h.position, h.score)) = [(0, 2 / 3)] ∧
      ∀ h ∈ hits, 0 < h.score ∧ h.score ≤ 1 ∧ ¬ ∀ spec ∈ x.fields,
        (Scorer.ofQuery x (.parse "rust".toList) articles).Perfect spec (.ofAttribute h.item spec.name) := by
  have hvalid : (articles : Config Rat).validate = .ok () := by decide +kernel
  have hfields : (articles : Config Rat).distinctFields = .ok articles.fields := by decide +kernel
  obtain ⟨x, hx, hits, hsearch, hlaw⟩ :=
    search_score [summarized "Rust guide".toList "A book".toList] articles "rust".toList hvalid (by decide +kernel)
      (length_summarized_lt (by decide) (by decide))
  have hranking : hits.map (fun h => (h.position, h.score)) = [(0, 2 / 3)] := by
    refine map_eq_of_eq_ok hsearch ?_
    rw [Except.ok.inj (hx.symm.trans (Index.build_eq _ hvalid hfields))]
    decide +kernel
  refine ⟨x, hx, hits, hsearch, hranking, fun h hh => ?_⟩
  obtain ⟨-, hpos, hone, -, hscore, hperfect⟩ := hlaw h hh
  rw [← hscore] at hpos hone hperfect
  have htwo : (h.position, h.score) ∈ [(0, (2 / 3 : Rat))] := hranking ▸ List.mem_map_of_mem hh
  have hscore : h.score = 2 / 3 := (Prod.mk.inj (List.mem_singleton.1 htwo)).2
  refine ⟨hpos, hone, fun hall => ?_⟩
  have hfull := hscore.symm.trans (hperfect.2 hall)
  norm_num at hfull

end ContentSearch
