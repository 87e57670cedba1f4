import ContentSearch.Proofs.Highlight.Answers
import ContentSearch.Proofs.Query.RoundTrip
import ContentSearch.Proofs.Search.Evidence

/-!
# What was found is shown

A search compares terms with words in lowercase and phrases with the whole text in lowercase, but what it shows of a field is
found by the pattern of the query.  The two agree: what occurs in a word of a text, or in the text, is sought by the pattern
(`IndexedField.Coherent.seeks`).  So a field has a *hit* (`FieldMatch.hit?`), the first match of the pattern or else a nearest
word.

* `shows_of_ofPattern`, `Marks.shows`: a hit that fits into the excerpt is shown whole, and something is marked;
* `exists_hit`: each field in which something was found has a hit, if the pattern was compiled;
* `hits_shown`: so a search shows the hit of each field that it matches.

A pattern that is too large is not compiled, and then a phrase may be found and nothing marked (`phrase_unmarked`).
-/

namespace ContentSearch

open Text (byteLength)

/-! ## what occurs is sought -/

/-- What occurs in a lowercase word of a text is sought in the text, though the word was lowered apart from it. -/
theorem Pattern.seeks_of_mem_tokens {q : Query} {u w t : Text} (hmem : u ∈ q.terms ++ q.phrases) (hne : u ≠ [])
    (hlower : Text.lowercase u = u) (hw : w ∈ Text.tokens t) (h : u <:+: w) : Seeks q t := by
  obtain ⟨v, hv, rfl⟩ := List.mem_map.1 hw
  have hpart : v <:+: t := by
    rw [← Text.flatten_segments t]
    exact List.infix_of_mem_flatten (List.mem_filter.1 hv).1
  exact (seeks_of_isInfix hmem hne hlower h).of_isInfix hpart

/-- **What occurs in a word of a field or in its text is sought.** -/
theorem IndexedField.Coherent.seeks {f : IndexedField} (hf : f.Coherent) {q : Query} {u : Text}
    (hmem : u ∈ q.terms ++ q.phrases) (hne : u ≠ []) (hlower : Text.lowercase u = u)
    (h : (∃ w ∈ f.words, u <:+: w) ∨ u <:+: f.lower) : Pattern.Seeks q f.text := by
  rcases h with ⟨w, hw, hinfix⟩ | hinfix
  · rw [hf.words] at hw
    exact Pattern.seeks_of_mem_tokens hmem hne hlower hw hinfix
  · rw [hf.lower] at hinfix
    exact Pattern.seeks_of_isInfix hmem hne hlower hinfix

/-! ## hits -/

namespace FieldMatch

section Hit

variable {α : Type} [Scalar α]

/-- Where a field was hit: at the first match of the pattern, or else at the nearest word. -/
def hit? (m : Matcher α) (p : Pattern) (terms : List Text) (fuzzy : Bool) (f : IndexedField) :
    Except Fault (Option Text.ByteRange) := do
  match ← p.firstMatch f.text with
  | some r => return some r
  | none => return nearestRange? m terms fuzzy f

variable {m : Matcher α} {p : Pattern} {terms : List Text} {fuzzy : Bool} {f : IndexedField}

theorem hit?_of_firstMatch {r : Text.ByteRange} (h : p.firstMatch f.text = .ok (some r)) :
    hit? m p terms fuzzy f = .ok (some r) := by
  rw [hit?, h]
  rfl

theorem hit?_of_not_occursIn (h : p.occursIn f.text = false) :
    hit? m p terms fuzzy f = .ok (nearestRange? m terms fuzzy f) := by
  have hnil : p.foldedMatches (Folded.ofText f.text) = [] := by simpa [Pattern.occursIn] using h
  rw [hit?, Pattern.firstMatch_of_eq_nil hnil]
  rfl

theorem ofPattern_of_ofField {spec : ScoredField α} {maxLength : Nat} {shown : FieldMatch} (h : p.occursIn f.text = true)
    (hshown : ofField m p terms spec f maxLength = .ok shown) : ofPattern spec.name p f.text maxLength = .ok shown := by
  rwa [ofField, h, if_pos rfl] at hshown

theorem ofPattern_of_nearestRange? {spec : ScoredField α} {maxLength : Nat} {shown : FieldMatch}
    (h : nearestRange? m terms spec.fuzzy f = none) (hshown : ofField m p terms spec f maxLength = .ok shown) :
    ofPattern spec.name p f.text maxLength = .ok shown := by
  rwa [ofField, h, ite_self] at hshown

end Hit

theorem positions_of_not_accepted {name t : Text} {p : Pattern} {maxLength : Nat} {m : FieldMatch} (hp : p.accepted = false)
    (h : ofPattern name p t maxLength = .ok m) : m.positions = [] := by
  obtain ⟨excerpt, -, h⟩ := exists_of_bind_eq_ok h
  rw [Pattern.positions_of_isEmpty (Pattern.isEmpty_of_not_accepted hp)] at h
  rw [← Except.ok.inj h]

/-- A part of a text is shown: the excerpt contains it whole, and something is marked. -/
structure Shows (m : FieldMatch) (before w after : Text) : Prop where
  excerpt : ∃ front back, m.excerpt = front ++ w ++ back ∧ Excerpt.IsFront before front ∧ Excerpt.IsBack after back
  positions : m.positions ≠ []

variable {before w after : Text} {maxLength : Nat} {m : FieldMatch}

theorem Marks.shows (h : m.Marks before w after maxLength) (hfits : w.length ≤ maxLength) : m.Shows before w after := by
  obtain ⟨front, back, hexcerpt, hfront, hback, ⟨k, -, hk, -⟩, -⟩ := h.positions hfits
  refine ⟨⟨front, back, hexcerpt, hfront, hback⟩, ?_⟩
  rw [hk]
  exact List.cons_ne_nil _ _

/-- The first match of a pattern is shown. What is sought occurs in it, so that it occurs in the excerpt too. -/
theorem shows_of_ofPattern [PatternCompiler] {name : Text} {q : Query} (hne : w ≠ [])
    (hoccurs : (Pattern.ofQuery q).occursIn w = true)
    (hfirst : (Pattern.ofQuery q).firstMatch (before ++ w ++ after) =
      .ok (some ⟨byteLength before, byteLength before + byteLength w⟩))
    (hfits : w.length ≤ maxLength) (hsize : (before ++ w ++ after).length < wordSize)
    (h : ofPattern name (.ofQuery q) (before ++ w ++ after) maxLength = .ok m) : m.Shows before w after := by
  obtain ⟨excerpt, hexcerpt, h⟩ := exists_of_bind_eq_ok h
  obtain ⟨positions, hpositions, h⟩ := exists_of_bind_eq_ok h
  obtain rfl := Except.ok.inj h
  rw [Excerpt.around, hfirst] at hexcerpt
  obtain ⟨front, back, hcut, hfront, hback⟩ := Excerpt.exists_cut_part (s := before) (u := after) hne hfits hsize
  obtain rfl := Except.ok.inj (hcut.symm.trans hexcerpt)
  refine ⟨⟨front, back, rfl, hfront, hback⟩, ?_⟩
  exact (Pattern.positions_ne_nil_iff hpositions).2
    (Pattern.occursIn_of_isInfix ⟨front, back, rfl⟩ hoccurs)

end FieldMatch

namespace FieldMatch

variable {α : Type} [PatternCompiler] [Scalar α] [Scalar.LawfulArithmetic α]

/-- **The hit of a field is shown**, whether it is a match or a word. -/
theorem exists_hit {m : Matcher α} (hm : m.Valid) {q : Query} {spec : ScoredField α} {f : IndexedField} {maxLength : Nat}
    (hsize : f.text.length < wordSize) {shown : FieldMatch}
    (hshown : ofField m (.ofQuery q) q.terms spec f maxLength = .ok shown) :
    ∃ hit, hit? m (.ofQuery q) q.terms spec.fuzzy f = .ok hit ∧ ∀ r, hit = some r →
      ∃ before w after, f.text = before ++ w ++ after ∧ w ≠ [] ∧ r = ⟨byteLength before, byteLength before + byteLength w⟩ ∧
        (w.length ≤ maxLength → shown.Shows before w after) := by
  cases hoccurs : (Pattern.ofQuery q).occursIn f.text with
  | true =>
    obtain ⟨before, w, after, htext, hne, hw, hfirst⟩ := Pattern.exists_firstMatch_part q hoccurs
    refine ⟨_, hit?_of_firstMatch hfirst, fun r hr => ?_⟩
    refine ⟨before, w, after, htext, hne, (Option.some.inj hr).symm, fun hfits => ?_⟩
    have hshown := ofPattern_of_ofField hoccurs hshown
    rw [htext] at hshown hfirst hsize
    exact shows_of_ofPattern hne hw hfirst hfits hsize hshown
  | false =>
    refine ⟨_, hit?_of_not_occursIn hoccurs, fun r hr => ?_⟩
    obtain ⟨word, before, w, after, -, hword, hr, hmarks⟩ := marks_of_ofField hm hsize hoccurs hr hshown
    exact ⟨before, w, after, hword.append.symm, hword.ne_nil, hr, hmarks.shows⟩

/-- **A field in which something was found has a hit**, if the pattern was compiled: what is not matched has a nearest word. -/
theorem isSome_hit {x : Index α} {q : Query} {c : Config α} {spec : ScoredField α} {f : IndexedField} (hf : f.Coherent)
    (hq : ∀ u ∈ q.terms ++ q.phrases, u ≠ [] ∧ Text.lowercase u = u) (hm : (Scorer.ofQuery x q c).matcher.Valid)
    (hfound : ((Scorer.ofQuery x q c).hits spec f).found = true) (hcompiled : (Pattern.ofQuery q).accepted = true)
    {hit : Option Text.ByteRange}
    (hhit : hit? (Scorer.ofQuery x q c).matcher (.ofQuery q) q.terms spec.fuzzy f = .ok hit) : hit.isSome = true := by
  cases hoccurs : (Pattern.ofQuery q).occursIn f.text with
  | true =>
    obtain ⟨before, w, after, -, -, -, hfirst⟩ := Pattern.exists_firstMatch_part q hoccurs
    rw [← Except.ok.inj ((hit?_of_firstMatch hfirst).symm.trans hhit)]
    rfl
  | false =>
    obtain ⟨r, hr⟩ := Scorer.exists_nearestRange hf hq hm hfound (Pattern.not_seeks_of_not_occursIn hcompiled hoccurs)
    rw [← Except.ok.inj ((hit?_of_not_occursIn hoccurs).symm.trans hhit), hr]
    rfl

end FieldMatch

/-- **What was found is shown.**  For every compiler of patterns, every collection whose texts fit into memory, every accepted
configuration and every query text, what a search shows of a field is its hit, if it has one, a part of its text that is not
empty: the first match of what the query seeks, or else a nearest word. If the excerpt has room for the hit, it contains the
whole hit, and something in it is marked. If the pattern of the query was compiled, there always is a hit; and whenever a term
or a phrase occurs in a word of the field or in its lowercase text, the hit is a match. -/
theorem hits_shown {ι α : Type} [PatternCompiler] [Searchable ι] [Scalar α] [Scalar.LawfulArithmetic α] (items : List ι)
    (c : Config α) (t : Text) (hc : c.validate = .ok ())
    (hsize : ∀ item ∈ items, ∀ name v, attribute? item name = some v → v.toText.length < wordSize) :
    ∃ x, Index.build items c = .ok x ∧ ∃ hits : List (Hit ι α), search items x (.parse t) c = .ok hits ∧
      ∀ h ∈ hits, ∀ m ∈ h.matched, ∃ spec ∈ x.fields, spec.name = m.field ∧
        ∃ hit, FieldMatch.hit? (.ofThreshold c.fuzzyThreshold) (.ofQuery (.parse t)) (Query.parse t).terms spec.fuzzy
            (.ofAttribute h.item m.field) = .ok hit ∧
          (∀ r, hit = some r → ∃ before w after,
            (IndexedField.ofAttribute h.item m.field).text = before ++ w ++ after ∧ w ≠ [] ∧
            r = ⟨byteLength before, byteLength before + byteLength w⟩ ∧
            (w.length ≤ c.excerptLength → m.Shows before w after)) ∧
          ((Pattern.ofQuery (.parse t)).accepted = true → hit.isSome = true ∧
            ∀ u ∈ (Query.parse t).terms ++ (Query.parse t).phrases,
              ((∃ w ∈ (IndexedField.ofAttribute h.item m.field).words, u <:+: w) ∨
                u <:+: (IndexedField.ofAttribute h.item m.field).lower) →
              (Pattern.ofQuery (.parse t)).occursIn (IndexedField.ofAttribute h.item m.field).text = true) := by
  obtain ⟨h₀, h₁⟩ := Config.threshold_of_validate hc
  have hvalid : (Matcher.ofThreshold c.fuzzyThreshold).Valid := Matcher.valid_ofThreshold h₀ h₁
  obtain ⟨x, hbuild, hits, hsearch, hall⟩ := exists_search_shown items (.parse t) hc hsize
  refine ⟨x, hbuild, hits, hsearch, fun h hh m hm => ?_⟩
  obtain ⟨spec, hspec, hname, hfit, hfound, hshown⟩ := hall h hh m hm
  have hf : (IndexedField.ofAttribute h.item m.field).Coherent := IndexedField.coherent_ofAttribute h.item m.field
  obtain ⟨hit, hhit, hall⟩ := FieldMatch.exists_hit hvalid hfit hshown
  refine ⟨spec, hspec, hname, hit, hhit, hall, fun hcompiled => ⟨?_, fun u hu hoccurs => ?_⟩⟩
  · exact FieldMatch.isSome_hit hf (fun u hu => Query.lower_of_mem_parse hu) hvalid hfound hcompiled hhit
  · obtain ⟨hne, hlower⟩ := Query.lower_of_mem_parse hu
    exact Pattern.occursIn_ofQuery_iff.2 ⟨hcompiled, hf.seeks hu hne hlower hoccurs⟩

/-- In lowercase, the capital sigma that ends the word is another letter than the one that stands for it in the copy. -/
theorem hits_shown_street :
    ∃ x, Index.build [titled "Η ΟΔΟΣ".toList] titles = .ok x ∧ ∃ hits : List (Hit Json Rat),
      search [titled "Η ΟΔΟΣ".toList] x (.parse "οδος".toList) titles = .ok hits ∧
      hits.map Hit.matched = [[⟨"title".toList, "Η ΟΔΟΣ".toList, [(2, 6)]⟩]] ∧
      ∀ h ∈ hits, ∀ m ∈ h.matched, ∃ before w after, "Η ΟΔΟΣ".toList = before ++ w ++ after ∧ m.Shows before w after := by
  obtain ⟨x, hx, hits, hsearch, hall⟩ :=
    hits_shown [titled "Η ΟΔΟΣ".toList] titles "οδος".toList (by decide +kernel) (length_titled_lt (by decide))
  have hshown : shownBy titles "Η ΟΔΟΣ".toList "οδος".toList =
      some [[⟨"title".toList, "Η ΟΔΟΣ".toList, [(2, 6)]⟩]] := by decide +kernel
  obtain ⟨hmatched, htitle⟩ := matched_of_shownBy hshown rfl hx hsearch
  refine ⟨x, hx, hits, hsearch, hmatched, fun h hh m hm => ?_⟩
  obtain ⟨-, -, -, hit, -, hparts, hcompiled⟩ := hall h hh m hm
  obtain ⟨r, rfl⟩ := Option.isSome_iff_exists.1 (hcompiled (by decide +kernel)).1
  obtain ⟨before, w, after, htext, -, -, hshows⟩ := hparts r rfl
  rw [htitle h hh m hm] at htext
  refine ⟨before, w, after, htext, hshows ?_⟩
  have hlength := congrArg List.length htext
  simp only [List.length_append] at hlength
  have hfits : "Η ΟΔΟΣ".toList.length ≤ titles.excerptLength := by decide
  omega

/-! ## patterns that are too large -/

theorem Pattern.automatonSize_eq_sum (terms : List Text) : automatonSize terms = (terms.flatten.map stateSize).sum := by
  rw [automatonSize, List.sum_eq_foldr, List.foldr_map]

theorem Pattern.not_accepted_of_mem_terms {q : Query} {t : Text} (ht : t ∈ Highlight.terms q)
    (hsize : sizeLimit < automatonSize [t]) : (ofQuery q).accepted = false := by
  have hle : automatonSize [t] ≤ automatonSize (Highlight.terms q) := by
    obtain ⟨before, after, h⟩ := List.append_of_mem ht
    simp only [h, automatonSize_eq_sum, List.flatten_append, List.flatten_cons, List.flatten_nil, List.append_nil, List.map_append,
      List.sum_append]
    omega
  exact decide_eq_false (by omega)

/-- A query for a phrase and a term of so many letters, as it is typed. -/
def longQuery (n : Nat) : Text := "\"rust\" ".toList ++ List.replicate n 'a'

section LongQuery

variable {n : Nat}

theorem parse_longQuery (hn : 0 < n) :
    Query.parse (longQuery n) = ⟨[List.replicate n 'a'], ["rust".toList], [], .empty, false⟩ := by
  have hletter : ∀ c ∈ List.replicate n 'a', c = 'a' := fun c hc => (List.mem_replicate.1 hc).2
  have hphrase : Query.IsPhrase "rust".toList := ⟨by decide, by decide +kernel, by decide, by decide +kernel⟩
  have hterm : Query.IsTerm (List.replicate n 'a') := by
    refine ⟨⟨⟨?_, fun c hc => ?_⟩, Text.lowercaseAfter_of_forall fun c hc => ?_⟩, fun u hu => ?_, fun a b h => ?_⟩
    · exact List.ne_nil_of_length_pos (by rwa [List.length_replicate])
    · rw [hletter c hc]
      decide
    · rw [hletter c hc]
      decide +kernel
    · exact absurd (hletter '-' (hu ▸ List.mem_cons_self)) (by decide)
    · exact absurd (hletter ':' (h ▸ List.mem_append_right a List.mem_cons_self)) (by decide)
  exact Query.parse_phrase_term hphrase hterm fun h => absurd (hletter _ h) (by decide)

/-- The automaton of the term takes 80 bytes for each letter. -/
theorem not_accepted_longQuery (hn : 131072 < n) : (Pattern.ofQuery (.parse (longQuery n))).accepted = false := by
  have hmem : List.replicate n 'a' ∈ (Query.parse (longQuery n)).terms ++ (Query.parse (longQuery n)).phrases := by
    simp [parse_longQuery (Nat.zero_lt_of_lt hn)]
  obtain ⟨hne, hlower⟩ := Query.lower_of_mem_parse hmem
  refine Pattern.not_accepted_of_mem_terms (Highlight.mem_terms_iff.2 ⟨hne, .inl ⟨_, hmem, hlower⟩⟩) ?_
  have hletter : Pattern.stateSize 'a' = 80 := by decide +kernel
  simp only [Pattern.automatonSize_eq_sum, Pattern.sizeLimit, List.flatten_singleton, List.map_replicate, List.sum_replicate, hletter,
    smul_eq_mul]
  omega

/-- The term is near no word of the title. -/
theorem nearestRange?_longQuery (hn : 131072 < n) (fuzzy : Bool) :
    FieldMatch.nearestRange? (.ofThreshold titles.fuzzyThreshold) (Query.parse (longQuery n)).terms fuzzy
      (.ofAttribute (titled "rust".toList) "title".toList) = none := by
  have hwords : (IndexedField.ofAttribute (titled "rust".toList) "title".toList).words = ["rust".toList] := by decide +kernel
  have hthreshold : (Matcher.ofThreshold titles.fuzzyThreshold).threshold = 1 / 5 := by decide +kernel
  have hfar : (Matcher.ofThreshold titles.fuzzyThreshold).wordDistance? (List.replicate n 'a') "rust".toList fuzzy = none := by
    refine Matcher.wordDistance?_of_length ?_ ?_
    · rw [List.length_replicate]
      exact Nat.lt_of_le_of_lt (by decide) hn
    · rw [List.length_replicate, hthreshold]
      show (1 / 5 : Rat) < ((n - 4 : Nat) : Rat) / (n : Rat)
      rw [div_lt_div_iff₀ (by norm_num) (by exact_mod_cast Nat.zero_lt_of_lt hn)]
      norm_cast
      omega
  rw [FieldMatch.nearestRange?, parse_longQuery (Nat.zero_lt_of_lt hn), hwords, List.filterMap_cons, Matcher.closestWord?,
    Matcher.closestWordAfter?, hfar]
  rfl

theorem meets_longQuery (hn : 0 < n) {x : Index Rat} (hx : Index.build [titled "rust".toList] titles = .ok x) :
    x.Meets (.parse (longQuery n)) (x.entryOf titles (titled "rust".toList)) := by
  have hfields : titles.distinctFields = .ok titles.fields := by decide +kernel
  have hlower : "rust".toList <:+: (IndexedField.ofAttribute (titled "rust".toList) "title".toList).lower := by decide +kernel
  obtain rfl := Except.ok.inj (hx.symm.trans (Index.build_eq _ (by decide +kernel) hfields))
  rw [parse_longQuery hn]
  refine ⟨by simp [Dictionary.empty, Dictionary.toList], by simp, fun p hp => ⟨_, List.mem_singleton_self _, ?_⟩⟩
  rw [List.mem_singleton.1 hp]
  exact hlower

/-- A title that is the phrase is found, but it has no hit, and nothing is marked. -/
theorem exists_unmarked (hn : 131072 < n) :
    ∃ x, Index.build [titled "rust".toList] titles = .ok x ∧ ∃ hits : List (Hit Json Rat),
      search [titled "rust".toList] x (.parse (longQuery n)) titles = .ok hits ∧ ∃ h ∈ hits, ∃ m ∈ h.matched,
        (∃ p ∈ (Query.parse (longQuery n)).phrases, p <:+: (IndexedField.ofAttribute h.item m.field).lower) ∧
        (∃ spec ∈ x.fields, spec.name = m.field ∧ FieldMatch.hit? (.ofThreshold titles.fuzzyThreshold)
          (.ofQuery (.parse (longQuery n))) (Query.parse (longQuery n)).terms spec.fuzzy
          (.ofAttribute h.item m.field) = .ok none) ∧
        m.positions = [] := by
  have hq := parse_longQuery (Nat.zero_lt_of_lt hn)
  have hvalid : titles.validate = .ok () := by decide +kernel
  have hsize : ∀ item ∈ [titled "rust".toList], ∀ name v, attribute? item name = some v → v.toText.length < wordSize :=
    length_titled_lt (by decide)
  have hphrase : "rust".toList ∈ (Query.parse (longQuery n)).phrases := by simp [hq]
  have hlower : "rust".toList <:+: (IndexedField.ofAttribute (titled "rust".toList) "title".toList).lower := by decide +kernel
  have hasks : (Query.parse (longQuery n)).filterOnly = false := by rw [hq]
  obtain ⟨x, hx, hits, hsearch, hfound⟩ := exists_match_of_phrase _ hvalid hasks hsize
  obtain ⟨x, hx', hits, hsearch', hshown⟩ := exists_search_shown _ (.parse (longQuery n)) hvalid hsize
  obtain rfl := Except.ok.inj (hx'.symm.trans hx)
  obtain rfl := Except.ok.inj (hsearch'.symm.trans hsearch)
  obtain ⟨h, hh, hitem, m, hm, hname⟩ :=
    hfound 0 _ _ "title".toList rfl (meets_longQuery (Nat.zero_lt_of_lt hn) hx) hphrase (by decide) (by decide +kernel) hlower
  obtain ⟨spec, hspec, hfield, -, -, hofField⟩ := hshown h hh m hm
  rw [hname, hitem] at hofField
  have hnearest := nearestRange?_longQuery hn spec.fuzzy
  have hrefused := not_accepted_longQuery hn
  have hoccurs : (Pattern.ofQuery (.parse (longQuery n))).occursIn
      (IndexedField.ofAttribute (titled "rust".toList) "title".toList).text = false :=
    Bool.eq_false_iff.2 fun h => absurd (Pattern.occursIn_ofQuery_iff.1 h).1 (by simp [hrefused])
  refine ⟨x, hx, hits, hsearch, h, hh, m, hm, ⟨_, hphrase, ?_⟩, ⟨spec, hspec, hfield, ?_⟩, ?_⟩
  · rw [hitem, hname]
    exact hlower
  · rw [hitem, hname, FieldMatch.hit?_of_not_occursIn hoccurs, hnearest]
  · exact FieldMatch.positions_of_not_accepted hrefused (FieldMatch.ofPattern_of_nearestRange? hnearest hofField)

end LongQuery

/-- **A phrase may be found, and nothing marked.**  With the compiler of the program, a term of 200000 letters makes the pattern
too large. -/
theorem phrase_unmarked :
    ∃ x, Index.build [titled "rust".toList] titles = .ok x ∧ ∃ hits : List (Hit Json Rat),
      search [titled "rust".toList] x (.parse (longQuery 200000)) titles = .ok hits ∧ ∃ h ∈ hits, ∃ m ∈ h.matched,
        (∃ p ∈ (Query.parse (longQuery 200000)).phrases, p <:+: (IndexedField.ofAttribute h.item m.field).lower) ∧
        (∃ spec ∈ x.fields, spec.name = m.field ∧ FieldMatch.hit? (.ofThreshold titles.fuzzyThreshold)
          (.ofQuery (.parse (longQuery 200000))) (Query.parse (longQuery 200000)).terms spec.fuzzy
          (.ofAttribute h.item m.field) = .ok none) ∧
        m.positions = [] :=
  exists_unmarked (by decide)

end ContentSearch
