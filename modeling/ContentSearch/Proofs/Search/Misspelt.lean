import ContentSearch.Proofs.Highlight.Occurrences
import ContentSearch.Proofs.Match.Nearest
import ContentSearch.Proofs.Search.Completion
import ContentSearch.Proofs.Search.Itemwise

/-!
# How a misspelt word is shown

A field in whose text nothing occurs that the query seeks can only have matched by a word that is spelt in another way.

* `marks_of_ofWord`: the excerpt is cut around the word, and what is marked is the first place in the excerpt where the text of
  the word stands;
* `marks_of_ofField`: a field that is shown by the place of a nearest word is shown by this word;
* `exists_nearestRange`: a field that matched without any occurrence has such a place;
* `exists_of_mem_matched`, `exists_search_shown`: what a hit shows are attributes of its item in which something was found;
* `misspelt_marked`: so a search shows each such field by one of its nearest words.

The first place in the excerpt where the text of the word stands may be inside another word (`twin_marked`).
-/

namespace ContentSearch

/-! ## what is marked -/

namespace FieldMatch

/-- A field is shown by a word of its text: its excerpt is cut around the word, and if it has room for the word, it is marked
once, at the first place in the excerpt where the text of the word stands. That is the word's own place unless the same text
stands at an earlier one. -/
structure Marks (m : FieldMatch) (before w after : Text) (maxLength : Nat) : Prop where
  excerpt : Excerpt.cut (before ++ w ++ after)
    (some ⟨Text.byteLength before, Text.byteLength before + Text.byteLength w⟩) maxLength = .ok m.excerpt
  positions : w.length ≤ maxLength → ∃ front back, m.excerpt = front ++ w ++ back ∧
    Excerpt.IsFront before front ∧ Excerpt.IsBack after back ∧
    (∃ k ≤ front.length, m.positions = [(k, k + w.length)] ∧ w <+: m.excerpt.drop k ∧
      ∀ j < k, ¬ w <+: m.excerpt.drop j) ∧
    (m.positions = [(front.length, front.length + w.length)] ↔ ∀ k < front.length, ¬ w <+: m.excerpt.drop k)

theorem marks_of_ofWord {name before w after : Text} {maxLength : Nat} {m : FieldMatch} (hne : w ≠ [])
    (hsize : (before ++ w ++ after).length < wordSize)
    (h : ofWord name (before ++ w ++ after) ⟨Text.byteLength before, Text.byteLength before + Text.byteLength w⟩ maxLength =
      .ok m) : m.Marks before w after maxLength := by
  obtain ⟨word, hword, h⟩ := exists_of_bind_eq_ok h
  obtain ⟨excerpt, hexcerpt, h⟩ := exists_of_bind_eq_ok h
  rw [Text.slice_part] at hword
  obtain rfl := Except.ok.inj hword
  obtain rfl := Except.ok.inj h
  refine ⟨hexcerpt, fun hfits => ?_⟩
  obtain ⟨front, back, hcut, hfront, hback⟩ := Excerpt.exists_cut_part hne hfits hsize
  obtain rfl := Except.ok.inj (hexcerpt.symm.trans hcut)
  obtain ⟨n, hn, hle⟩ := Text.exists_find?_append front w back
  obtain ⟨-, hstands, hfirst⟩ := Text.find?_eq_some_iff.1 hn
  have hmarked : ((Text.find? w (front ++ w ++ back)).map fun n => (n, n + w.length)).toList = [(n, n + w.length)] := by
    rw [hn]
    rfl
  refine ⟨front, back, rfl, hfront, hback, ⟨n, hle, hmarked, hstands, hfirst⟩, ?_⟩
  dsimp only
  rw [hmarked]
  constructor
  · intro hown k hk
    obtain rfl : n = front.length := (Prod.mk.inj (List.cons.inj hown).1).1
    exact hfirst k hk
  · intro hnone
    obtain rfl : n = front.length := Nat.le_antisymm hle (Nat.le_of_not_lt fun hlt => hnone n hlt hstands)
    rfl

end FieldMatch

/-! ## fields -/

section Fields

variable {α : Type} [Scalar α] {m : Matcher α}

theorem Matcher.exists_of_fieldDistance? {term lower : Text} {words : List Text} {fuzzy : Bool} {d : α}
    (h : m.fieldDistance? term lower words fuzzy = some d) :
    term <:+: lower ∨ ∃ r, m.closestWord? term words fuzzy = some r := by
  unfold fieldDistance? at h
  split at h
  · exact absurd h (Option.some_ne_none d ∘ Eq.symm)
  split at h
  · next hpart => exact .inl (Text.occursIn_iff.1 (Bool.and_eq_true_iff.1 hpart).2)
  · obtain ⟨r, hr, -⟩ := Option.map_eq_some_iff.1 h
    exact .inr ⟨r, hr⟩

namespace FieldMatch

variable {p : Pattern} {terms : List Text} {spec : ScoredField α} {f : IndexedField} {maxLength : Nat} {r : Text.ByteRange}
  {shown : FieldMatch}

theorem ofWord_of_ofField (hnone : p.occursIn f.text = false) (hr : nearestRange? m terms spec.fuzzy f = some r)
    (h : ofField m p terms spec f maxLength = .ok shown) : ofWord spec.name f.text r maxLength = .ok shown := by
  rwa [ofField, hnone, if_neg Bool.false_ne_true, hr] at h

variable [Scalar.LawfulArithmetic α]

theorem exists_of_nearestRange? {fuzzy : Bool} (hm : m.Valid) (h : nearestRange? m terms fuzzy f = some r) :
    ∃ word before w after, Matcher.IsNearest α terms f.words fuzzy word ∧ Text.IsFirstWord f.text word before w after ∧
      r = ⟨Text.byteLength before, Text.byteLength before + Text.byteLength w⟩ := by
  obtain ⟨⟨word, d⟩, hnearest, hrange⟩ := Option.bind_eq_some_iff.1 h
  obtain ⟨before, w, after, hword, hr⟩ := exists_of_wordRange? hrange
  exact ⟨word, before, w, after, Matcher.isNearest_of_nearest? hm hnearest, hword, hr⟩

/-- **A field that has a nearest word and no match is shown by this word.** -/
theorem marks_of_ofField (hm : m.Valid) (hsize : f.text.length < wordSize) (hnone : p.occursIn f.text = false)
    (hr : nearestRange? m terms spec.fuzzy f = some r) (hshown : ofField m p terms spec f maxLength = .ok shown) :
    ∃ word before w after, Matcher.IsNearest α terms f.words spec.fuzzy word ∧ Text.IsFirstWord f.text word before w after ∧
      r = ⟨Text.byteLength before, Text.byteLength before + Text.byteLength w⟩ ∧ shown.Marks before w after maxLength := by
  obtain ⟨word, before, w, after, hnearest, hword, rfl⟩ := exists_of_nearestRange? hm hr
  refine ⟨word, before, w, after, hnearest, hword, rfl, ?_⟩
  have hshown := ofWord_of_ofField hnone hr hshown
  rw [← hword.append] at hshown hsize
  exact marks_of_ofWord hword.ne_nil hsize hshown

end FieldMatch

variable [Scalar.LawfulArithmetic α] [PatternCompiler] {x : Index α} {q : Query} {c : Config α}

/-- A field in which a query finds something, though nothing that it seeks occurs in the text, has a nearest word. -/
theorem Scorer.exists_nearest {spec : ScoredField α} {f : IndexedField} (hf : f.Coherent)
    (hq : ∀ u ∈ q.terms ++ q.phrases, u ≠ [] ∧ Text.lowercase u = u) (hm : (ofQuery x q c).matcher.Valid)
    (hfound : ((ofQuery x q c).hits spec f).found = true) (hnone : ¬ Pattern.Seeks q f.text) :
    ∃ r, FieldMatch.nearest? (q.terms.filterMap fun term =>
      (ofQuery x q c).matcher.closestWord? term f.words spec.fuzzy) = some r := by
  have hoccurs : ∀ u ∈ q.terms ++ q.phrases, ¬ u <:+: f.lower := by
    intro u hu hinfix
    obtain ⟨hne, hlower⟩ := hq u hu
    rw [hf.lower] at hinfix
    exact hnone (Pattern.seeks_of_isInfix hu hne hlower hinfix)
  obtain ⟨-, ⟨term, hterm, hquality⟩ | ⟨phrase, hphrase, hinfix⟩⟩ := found_hits_iff.1 hfound
  · obtain ⟨v, hv⟩ := Option.isSome_iff_exists.1 hquality
    obtain ⟨d, hd, -, -⟩ := Matcher.matchQuality?_eq_some_iff.1 hv
    rcases Matcher.exists_of_fieldDistance? hd with hinfix | ⟨r, hr⟩
    · exact absurd hinfix (hoccurs term (List.mem_append_left _ hterm))
    · have hmem : r ∈ q.terms.filterMap fun term =>
          (ofQuery x q c).matcher.closestWord? term f.words spec.fuzzy := List.mem_filterMap.2 ⟨term, hterm, hr⟩
      refine Option.ne_none_iff_exists'.1 fun hnone => ?_
      have hnil := (Matcher.nearest?_closestWord?_spec hm).none hnone
      rw [List.map_eq_nil_iff.1 hnil] at hmem
      exact absurd hmem List.not_mem_nil
  · exact absurd hinfix (hoccurs phrase (List.mem_append_right _ hphrase))

/-- **A field that matched without any occurrence has a place at which a nearest word stands.** -/
theorem Scorer.exists_nearestRange {spec : ScoredField α} {f : IndexedField} (hf : f.Coherent)
    (hq : ∀ u ∈ q.terms ++ q.phrases, u ≠ [] ∧ Text.lowercase u = u) (hm : (ofQuery x q c).matcher.Valid)
    (hfound : ((ofQuery x q c).hits spec f).found = true) (hnone : ¬ Pattern.Seeks q f.text) :
    ∃ r, FieldMatch.nearestRange? (ofQuery x q c).matcher q.terms spec.fuzzy f = some r := by
  obtain ⟨⟨word, d⟩, hr⟩ := exists_nearest hf hq hm hfound hnone
  have hnearest : Matcher.IsNearest α q.terms f.words spec.fuzzy word := Matcher.isNearest_of_nearest? hm hr
  obtain ⟨range, hrange⟩ := FieldMatch.exists_wordRange? (hf.words ▸ hnearest.mem)
  refine ⟨range, ?_⟩
  rw [FieldMatch.nearestRange?, hr, Option.bind_some]
  exact hrange

end Fields

/-! ## hits -/

section Hits

variable {ι α : Type} [Scalar α]

/-- What a hit shows are fields of its item in which something was found. -/
theorem exists_of_mem_matched [PatternCompiler] {items : List ι} {x : Index α} {q : Query} {c : Config α}
    {hits : List (Hit ι α)} (hsearch : search items x q c = .ok hits) {h : Hit ι α} (hh : h ∈ hits) {m : FieldMatch}
    (hm : m ∈ h.matched) :
    ∃ e spec f, items[h.position]? = some h.item ∧ x.items[h.position]? = some e ∧ (spec, f) ∈ x.fields.zip e.fields ∧
      ((Scorer.ofQuery x q c).hits spec f).found = true ∧
      FieldMatch.ofField (Scorer.ofQuery x q c).matcher (.ofQuery q) q.terms spec f c.excerptLength = .ok m := by
  obtain ⟨i, -, ⟨-, hmade⟩ | ⟨-, hmade⟩⟩ := exists_of_mem_search hsearch hh
  · obtain ⟨item, -, hmade⟩ := exists_of_bind_eq_ok hmade
    obtain rfl := Except.ok.inj hmade
    exact absurd hm List.not_mem_nil
  · obtain ⟨e, item, r, he, hr, hitem, rfl⟩ := Hit.scored?_eq_some_iff.1 hmade
    obtain ⟨spec, f, hzip, hfound, hshown⟩ := Scorer.exists_of_mem_score hr hm
    exact ⟨e, spec, f, hitem, he, hzip, hfound, hshown⟩

/-- **What a search shows.**  A search of the index that an accepted configuration builds of its items shows, of each hit,
attributes in which something was found. -/
theorem exists_search_shown [PatternCompiler] [Searchable ι] (items : List ι) {c : Config α} (q : Query)
    (hc : c.validate = .ok ())
    (hsize : ∀ item ∈ items, ∀ name v, attribute? item name = some v → v.toText.length < wordSize) :
    ∃ x, Index.build items c = .ok x ∧ ∃ hits : List (Hit ι α), search items x q c = .ok hits ∧
      ∀ h ∈ hits, ∀ m ∈ h.matched, ∃ spec ∈ x.fields, spec.name = m.field ∧
        (IndexedField.ofAttribute h.item m.field).text.length < wordSize ∧
        ((Scorer.ofQuery x q c).hits spec (.ofAttribute h.item m.field)).found = true ∧
        FieldMatch.ofField (.ofThreshold c.fuzzyThreshold) (.ofQuery q) q.terms spec (.ofAttribute h.item m.field)
          c.excerptLength = .ok m := by
  obtain ⟨x, -, -, hbuild⟩ := Index.exists_build_covering ι hc
  have hfits := x.fits_covering (c := c) hsize
  have hsearch := search_eq_takeAtMost items q c hfits
  refine ⟨_, hbuild items, _, hsearch, fun h hh m hm => ?_⟩
  obtain ⟨e, spec, f, hitem, he, hzip, hfound, hshown⟩ := exists_of_mem_matched hsearch hh hm
  obtain rfl : e = x.entryOf c h.item := Option.some.inj (he.symm.trans (Index.getElem?_covering hitem))
  have hfield : m.field = spec.name := FieldMatch.field_of_ofField hshown
  have hfit : f.text.length < wordSize := hfits _ (List.mem_of_getElem? he) f (List.of_mem_zip hzip).2
  obtain ⟨hspec, rfl⟩ := Index.mem_zip_entryOf_iff.1 hzip
  rw [hfield]
  exact ⟨spec, hspec, rfl, hfit, hfound, hshown⟩

end Hits

/-- **How a misspelt word is shown.**  For every collection whose texts fit into memory, every accepted configuration and every
query text, a search shows each field that it matches, though nothing that is sought occurs in its text, by a word of the field
that is nearest to one of the terms: by the excerpt around the first occurrence of this word in the text, and, if the excerpt
has room for the word, by one range of the excerpt, at which the text of the word stands for the first time. -/
theorem misspelt_marked {ι α : Type} [PatternCompiler] [Searchable ι] [Scalar α] [Scalar.LawfulArithmetic α] (items : List ι)
    (c : Config α) (t : Text) (hc : c.validate = .ok ())
    (hsize : ∀ item ∈ items, ∀ name v, attribute? item name = some v → v.toText.length < wordSize) :
    ∃ x, Index.build items c = .ok x ∧ ∃ hits : List (Hit ι α), search items x (.parse t) c = .ok hits ∧
      ∀ h ∈ hits, ∀ m ∈ h.matched,
        ¬ Pattern.Seeks (.parse t) (IndexedField.ofAttribute h.item m.field).text →
        ∃ spec ∈ x.fields, spec.name = m.field ∧ ∃ word before w after,
          Matcher.IsNearest α (Query.parse t).terms (IndexedField.ofAttribute h.item m.field).words spec.fuzzy word ∧
          Text.IsFirstWord (IndexedField.ofAttribute h.item m.field).text word before w after ∧
          m.Marks before w after c.excerptLength := by
  obtain ⟨h₀, h₁⟩ := Config.threshold_of_validate hc
  obtain ⟨x, hbuild, hits, hsearch, hall⟩ := exists_search_shown items (.parse t) hc hsize
  refine ⟨x, hbuild, hits, hsearch, fun h hh m hm hnone => ?_⟩
  obtain ⟨spec, hspec, hname, hfit, hfound, hshown⟩ := hall h hh m hm
  have hvalid : (Matcher.ofThreshold c.fuzzyThreshold).Valid := Matcher.valid_ofThreshold h₀ h₁
  obtain ⟨r, hr⟩ := Scorer.exists_nearestRange (IndexedField.coherent_ofAttribute h.item m.field)
    (fun u hu => Query.lower_of_mem_parse hu) hvalid hfound hnone
  obtain ⟨word, before, w, after, hnearest, hword, -, hmarks⟩ :=
    FieldMatch.marks_of_ofField hvalid hfit (Pattern.not_occursIn_of_not_seeks hnone) hr hshown
  exact ⟨spec, hspec, hname, word, before, w, after, hnearest, hword, hmarks⟩

/-- How each item is shown that a query finds in a collection of one title by a configuration. -/
def shownBy (c : Config Rat) (title query : Text) : Option (List (List FieldMatch)) :=
  eachHit Hit.matched c [titled title] query

/-- If that is one match of the title, the search shows nothing else, and shows it of the text of the title. -/
theorem matched_of_shownBy {c : Config Rat} {title query : Text} {m₀ : FieldMatch}
    (hshown : shownBy c title query = some [[m₀]]) (hfield : m₀.field = "title".toList) {x : Index Rat}
    (hx : Index.build [titled title] c = .ok x) {hits : List (Hit Json Rat)}
    (hsearch : search [titled title] x (.parse query) c = .ok hits) :
    hits.map Hit.matched = [[m₀]] ∧
      ∀ h ∈ hits, ∀ m ∈ h.matched, (IndexedField.ofAttribute h.item m.field).text = title := by
  have hmatched : hits.map Hit.matched = [[m₀]] := by
    rw [shownBy, eachHit, hx] at hshown
    change (do let hits ← (search _ x _ c).toOption; return hits.map Hit.matched) = _ at hshown
    rw [hsearch] at hshown
    exact Option.some.inj hshown
  refine ⟨hmatched, fun h hh m hm => ?_⟩
  obtain ⟨-, -, -, hitem, -⟩ := exists_of_mem_matched hsearch hh hm
  have hone : h.matched = [m₀] := List.mem_singleton.1 (hmatched ▸ List.mem_map_of_mem hh)
  rw [hone] at hm
  rw [List.mem_singleton.1 (List.mem_of_getElem? hitem), List.mem_singleton.1 hm, hfield]
  rfl

theorem misspelt_marked_title :
    ∃ x, Index.build [titled "Rust security handbook".toList] titles = .ok x ∧ ∃ hits : List (Hit Json Rat),
      search [titled "Rust security handbook".toList] x (.parse "secruity".toList) titles = .ok hits ∧
      hits.map Hit.matched = [[⟨"title".toList, "Rust security handbook".toList, [(5, 13)]⟩]] ∧
      ∀ h ∈ hits, ∀ m ∈ h.matched, ∃ word before w after,
        Text.IsFirstWord "Rust security handbook".toList word before w after ∧
        m.Marks before w after titles.excerptLength := by
  obtain ⟨x, hx, hits, hsearch, hmarked⟩ :=
    misspelt_marked [titled "Rust security handbook".toList] titles "secruity".toList (by decide +kernel)
      (length_titled_lt (by decide))
  have hshown : shownBy titles "Rust security handbook".toList "secruity".toList =
      some [[⟨"title".toList, "Rust security handbook".toList, [(5, 13)]⟩]] := by decide +kernel
  obtain ⟨hmatched, htext⟩ := matched_of_shownBy hshown rfl hx hsearch
  refine ⟨x, hx, hits, hsearch, hmatched, fun h hh m hm => ?_⟩
  have ht := htext h hh m hm
  have hnone : ¬ Pattern.Seeks (.parse "secruity".toList) (IndexedField.ofAttribute h.item m.field).text := by
    rw [ht]
    exact Pattern.not_seeks_of_not_occursIn (by decide +kernel) (by decide +kernel)
  obtain ⟨-, -, -, word, before, w, after, -, hword, hm⟩ := hmarked h hh m hm hnone
  exact ⟨word, before, w, after, ht ▸ hword, hm⟩

/-- **The text of the word may stand inside another one.**  The second word of the title, which stands at 14, is nearest to the
term, and nothing that is sought occurs in the title; but what is marked is a part of the first word. -/
theorem twin_marked :
    (Query.parse "secruity".toList).terms = ["secruity".toList] ∧
      ¬ Pattern.Seeks (.parse "secruity".toList) "cybersecurity security".toList ∧
      Text.segments "cybersecurity security".toList = ["cybersecurity".toList, " ".toList, "security".toList] ∧
      (Matcher.unboundedDistance? "secruity".toList "cybersecurity".toList true : Option Rat) = some (6 / 13) ∧
      (Matcher.unboundedDistance? "secruity".toList "security".toList true : Option Rat) = some (1 / 8) ∧
      shownBy titles "cybersecurity security".toList "secruity".toList =
        some [[⟨"title".toList, "cybersecurity security".toList, [(5, 13)]⟩]] := by
  refine ⟨by decide +kernel, ?_, by decide +kernel⟩
  exact Pattern.not_seeks_of_not_occursIn (by decide +kernel) (by decide +kernel)

end ContentSearch
