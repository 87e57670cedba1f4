import ContentSearch.Proofs.Highlight.Excerpts
import ContentSearch.Proofs.Text.Words
import ContentSearch.Search.Ranking

/-!
# Every item that scores is shown

A hit shows an excerpt of each field that contributes.  As long as the texts of an entry fit into memory every excerpt is
cut, whether around a match of the pattern or around the nearest word, which is a part of the text too
(`isPart_of_wordRange?`).

* `exists_of_wordRange?`: a word is found at its first occurrence in the text;
* `exists_ofField`: a field is shown under its own name;
* `exists_score`: an item is shown exactly if it has a score, and with that score;
* `forall₂_of_score`: what is shown of it are the matches of the fields in which something is found;
* `exists_hit`: so is its hit, with the item and its position.
-/

namespace ContentSearch

variable {α : Type} [Scalar α]

/-! ## words in place -/

namespace FieldMatch

/-- The word that is found in a text is the first one with its lowercase form. -/
theorem exists_of_wordRange? {t word : Text} {r : Text.ByteRange} (h : wordRange? t word = some r) :
    ∃ before w after, Text.IsFirstWord t word before w after ∧
      r = ⟨Text.byteLength before, Text.byteLength before + Text.byteLength w⟩ := by
  obtain ⟨⟨k, w⟩, hfind, rfl⟩ := Option.map_eq_some_iff.1 h
  rw [Text.wordsWithOffsets, List.find?_filter, List.find?_eq_some_iff_append] at hfind
  obtain ⟨hw, as, bs, happend, has⟩ := hfind
  rw [decide_eq_true_eq] at hw
  have hsegments : Text.segments t = as.map (·.2) ++ w :: bs.map (·.2) := by
    rw [← Text.map_snd_withOffsets 0 (Text.segments t), happend]
    simp
  obtain rfl : k = Text.byteLength (as.map (·.2)).flatten := by
    rw [Text.offset_of_withOffsets happend, Nat.zero_add]
  refine ⟨(as.map (·.2)).flatten, w, (bs.map (·.2)).flatten, ⟨⟨_, _, hsegments, rfl, rfl, ?_⟩, hw.1,
    of_decide_eq_true hw.2⟩, rfl⟩
  intro v hv hword hlower
  obtain ⟨a, ha, rfl⟩ := List.mem_map.1 hv
  have hnot := has a ha
  simp [hword, hlower] at hnot

theorem exists_wordRange? {t word : Text} (h : word ∈ Text.tokens t) : ∃ r, wordRange? t word = some r := by
  obtain ⟨w, hw, rfl⟩ := List.mem_map.1 h
  obtain ⟨hsegment, hword⟩ := List.mem_filter.1 hw
  rw [← Text.map_snd_withOffsets 0 (Text.segments t)] at hsegment
  obtain ⟨a, ha, rfl⟩ := List.mem_map.1 hsegment
  have hmem : a ∈ Text.wordsWithOffsets t := List.mem_filter.2 ⟨ha, hword⟩
  have hfound : ((Text.wordsWithOffsets t).find? fun w => Text.lowercase w.2 = Text.lowercase a.2).isSome :=
    List.find?_isSome.2 ⟨a, hmem, decide_eq_true rfl⟩
  obtain ⟨b, hb⟩ := Option.isSome_iff_exists.1 hfound
  exact ⟨_, by rw [wordRange?, hb]; rfl⟩

theorem isPart_of_wordRange? {t word : Text} {r : Text.ByteRange} (h : wordRange? t word = some r) :
    Text.IsPart t r := by
  obtain ⟨before, w, after, hword, rfl⟩ := exists_of_wordRange? h
  exact ⟨before, w, after, hword.append.symm, rfl⟩

/-! ## fields -/

theorem exists_ofWord (name : Text) {t : Text} (hsize : t.length < wordSize) {r : Text.ByteRange} (hr : Text.IsPart t r)
    (maxLength : Nat) : ∃ m, ofWord name t r maxLength = .ok m ∧ m.field = name := by
  have hanchor : ∀ r', some r = some r' → Text.IsPart t r' := by
    intro r' h
    rwa [← Option.some.inj h]
  obtain ⟨e, he⟩ := Excerpt.exists_cut hsize hanchor
  obtain ⟨s, m, u, rfl, rfl⟩ := hr
  rw [ofWord, Text.slice_part, he]
  exact ⟨_, rfl, rfl⟩

theorem exists_ofPattern (name : Text) (p : Pattern) {t : Text} (hsize : t.length < wordSize) (maxLength : Nat) :
    ∃ m, ofPattern name p t maxLength = .ok m ∧ m.field = name := by
  obtain ⟨e, he⟩ := Excerpt.exists_around p hsize maxLength
  obtain ⟨segs, hsegs, -⟩ := p.exists_highlight e
  rw [ofPattern, he]
  refine ⟨⟨name, e, Pattern.positionsFrom 0 segs⟩, ?_, rfl⟩
  show (do return FieldMatch.mk name e (← p.positions e)) = _
  rw [Pattern.positions, hsegs]
  rfl

/-- A field whose text fits into memory is shown under its name. -/
theorem exists_ofField (m : Matcher α) (p : Pattern) (terms : List Text) (spec : ScoredField α) {f : IndexedField}
    (hsize : f.text.length < wordSize) (maxLength : Nat) :
    ∃ r, ofField m p terms spec f maxLength = .ok r ∧ r.field = spec.name := by
  unfold ofField
  cases hword : if p.occursIn f.text then none else nearestRange? m terms spec.fuzzy f with
  | none => exact exists_ofPattern spec.name p hsize maxLength
  | some r =>
    have hr : Text.IsPart f.text r := by
      split at hword
      · simp at hword
      · obtain ⟨⟨word, d⟩, -, hrange⟩ := Option.bind_eq_some_iff.1 hword
        exact isPart_of_wordRange? hrange
    exact exists_ofWord spec.name hsize hr maxLength

theorem field_of_ofField {m : Matcher α} {p : Pattern} {terms : List Text} {spec : ScoredField α} {f : IndexedField}
    {maxLength : Nat} {r : FieldMatch} (h : ofField m p terms spec f maxLength = .ok r) : r.field = spec.name := by
  unfold ofField at h
  split at h
  · obtain ⟨word, -, h⟩ := exists_of_bind_eq_ok h
    obtain ⟨excerpt, -, h⟩ := exists_of_bind_eq_ok h
    rw [← Except.ok.inj h]
  · obtain ⟨excerpt, -, h⟩ := exists_of_bind_eq_ok h
    obtain ⟨positions, -, h⟩ := exists_of_bind_eq_ok h
    rw [← Except.ok.inj h]

end FieldMatch

/-! ## items -/

/-- The texts of the scored fields of an entry fit into memory. -/
def IndexedItem.Fits (e : IndexedItem) : Prop := ∀ f ∈ e.fields, f.text.length < wordSize

theorem Scorer.mem_fieldHits_iff {s : Scorer α} {e : IndexedItem} {spec : ScoredField α} {f : IndexedField}
    {h : FieldHits α} : (spec, f, h) ∈ s.fieldHits e ↔ (spec, f) ∈ s.fields.zip e.fields ∧ h = s.hits spec f := by
  unfold fieldHits
  rw [List.mem_map]
  constructor
  · rintro ⟨⟨spec', f'⟩, hzip, heq⟩
    obtain ⟨rfl, rfl, rfl⟩ : spec' = spec ∧ f' = f ∧ s.hits spec' f' = h := by simpa using heq
    exact ⟨hzip, rfl⟩
  · rintro ⟨hzip, rfl⟩
    exact ⟨(spec, f), hzip, rfl⟩

/-- An item has a result exactly if it has a score, and then with that score. -/
theorem Scorer.exists_score (s : Scorer α) {e : IndexedItem} (he : e.Fits) :
    ∃ r, s.score e = .ok r ∧ r.map Scored.score = s.value? e := by
  unfold Scorer.score
  cases hvalue : s.value? e with
  | none => exact ⟨none, rfl, rfl⟩
  | some v =>
    have hfield : ∀ x ∈ (s.fieldHits e).filter fun y => y.2.2.found, ∃ m,
        FieldMatch.ofField s.matcher s.pattern s.query.terms x.1 x.2.1 s.excerptLength = .ok m ∧ m.field = x.1.name := by
      rintro ⟨spec, f, h⟩ hx
      obtain ⟨hzip, -⟩ := mem_fieldHits_iff.1 (List.mem_of_mem_filter hx)
      exact FieldMatch.exists_ofField _ _ _ _ (he f (List.of_mem_zip hzip).2) _
    obtain ⟨matched, hmatched, -⟩ := exists_mapM_eq_ok hfield
    refine ⟨some ⟨v, matched, s.matchedTerms e⟩, ?_, rfl⟩
    dsimp only
    rw [hmatched]
    rfl

/-- What an item is given that has a result: a match for each field in which something is found, in their order. -/
theorem Scorer.forall₂_of_score {s : Scorer α} {e : IndexedItem} {r : Scored α} (h : s.score e = .ok (some r)) :
    List.Forall₂ (fun x m => FieldMatch.ofField s.matcher s.pattern s.query.terms x.1 x.2.1 s.excerptLength = .ok m)
        ((s.fieldHits e).filter fun x => x.2.2.found) r.matched ∧ r.matchedTerms = s.matchedTerms e := by
  unfold Scorer.score at h
  cases hvalue : s.value? e with
  | none =>
    rw [hvalue] at h
    exact absurd (Except.ok.inj h) (by simp)
  | some v =>
    rw [hvalue] at h
    obtain ⟨matched, hmatched, h⟩ := exists_of_bind_eq_ok h
    obtain rfl := Option.some.inj (Except.ok.inj h)
    exact ⟨forall₂_of_mapM_eq_ok hmatched, rfl⟩

theorem Scorer.shown_of_score {s : Scorer α} {e : IndexedItem} {r : Scored α} (h : s.score e = .ok (some r)) :
    r.matched.map (·.field) = ((s.fieldHits e).filter fun x => x.2.2.found).map (·.1.name) ∧
      r.matchedTerms = s.matchedTerms e := by
  obtain ⟨hmatched, hterms⟩ := forall₂_of_score h
  have hnames : List.Forall₂ (fun x m => x.1.name = m.field) ((s.fieldHits e).filter fun x => x.2.2.found) r.matched :=
    hmatched.imp fun _ _ hm => (FieldMatch.field_of_ofField hm).symm
  have heq : List.Forall₂ Eq (((s.fieldHits e).filter fun x => x.2.2.found).map (·.1.name)) (r.matched.map (·.field)) :=
    List.forall₂_map_left_iff.2 (List.forall₂_map_right_iff.2 hnames)
  rw [List.forall₂_eq_eq_eq] at heq
  exact ⟨heq.symm, hterms⟩

theorem Scorer.exists_of_mem_score {s : Scorer α} {e : IndexedItem} {r : Scored α} (h : s.score e = .ok (some r))
    {m : FieldMatch} (hm : m ∈ r.matched) : ∃ spec f, (spec, f) ∈ s.fields.zip e.fields ∧ (s.hits spec f).found = true ∧
      FieldMatch.ofField s.matcher s.pattern s.query.terms spec f s.excerptLength = .ok m := by
  obtain ⟨⟨spec, f, hits⟩, hx, hshown⟩ := exists_of_mem_right (forall₂_of_score h).1 hm
  obtain ⟨hx, hfound⟩ := List.mem_filter.1 hx
  obtain ⟨hzip, rfl⟩ := mem_fieldHits_iff.1 hx
  exact ⟨spec, f, hzip, hfound, hshown⟩

theorem itemAt_eq_ok_iff {β : Type} {l : List β} {n : Nat} {a : β} : itemAt l n = .ok a ↔ l[n]? = some a := by
  unfold itemAt
  cases l[n]? <;> simp

namespace Hit

variable {ι : Type}

/-- What is made of the item at a position: its hit, or nothing if it has no score. -/
structure IsMade (items : List ι) (entries : List IndexedItem) (s : Scorer α) (i : Nat) (o : Option (Hit ι α)) :
    Prop where
  value : ∃ e, entries[i]? = some e ∧ s.value? e = o.map Hit.score
  place : ∀ h, o = some h → h.position = i ∧ items[i]? = some h.item

theorem exists_hit {items : List ι} {entries : List IndexedItem} (s : Scorer α) {i : Nat} {item : ι} {e : IndexedItem}
    (hitem : items[i]? = some item) (hentry : entries[i]? = some e) (he : e.Fits) :
    ∃ o, scored? items entries s i = .ok o ∧ IsMade items entries s i o := by
  have hat : itemAt items i = .ok item := itemAt_eq_ok_iff.2 hitem
  have hat' : itemAt entries i = .ok e := itemAt_eq_ok_iff.2 hentry
  obtain ⟨r, hr, hvalue⟩ := s.exists_score he
  cases r with
  | none =>
    refine ⟨none, ?_, ⟨e, hentry, hvalue.symm⟩, by simp⟩
    simp only [scored?, hat', hr, bind, Except.bind, pure, Except.pure]
  | some r =>
    refine ⟨some ⟨item, i, r.score, r.matched, r.matchedTerms⟩, ?_, ⟨e, hentry, hvalue.symm⟩, ?_⟩
    · simp only [scored?, hat', hr, hat, bind, Except.bind, pure, Except.pure]
    · intro h hh
      obtain rfl := Option.some.inj hh
      exact ⟨rfl, hitem⟩

/-- A hit that scores is what its item and the result of its entry are put together to. -/
theorem scored?_eq_some_iff {items : List ι} {entries : List IndexedItem} {s : Scorer α} {i : Nat} {h : Hit ι α} :
    scored? items entries s i = .ok (some h) ↔
      ∃ e item r, entries[i]? = some e ∧ s.score e = .ok (some r) ∧ items[i]? = some item ∧
        h = ⟨item, i, r.score, r.matched, r.matchedTerms⟩ := by
  constructor
  · intro h
    obtain ⟨e, he, h⟩ := exists_of_bind_eq_ok h
    obtain ⟨o, ho, h⟩ := exists_of_bind_eq_ok h
    cases o with
    | none => exact absurd (Except.ok.inj h) (by simp)
    | some r =>
      obtain ⟨item, hitem, h⟩ := exists_of_bind_eq_ok h
      exact ⟨e, item, r, itemAt_eq_ok_iff.1 he, ho, itemAt_eq_ok_iff.1 hitem, (Option.some.inj (Except.ok.inj h)).symm⟩
  · rintro ⟨e, item, r, he, hr, hitem, rfl⟩
    have hat : itemAt items i = .ok item := itemAt_eq_ok_iff.2 hitem
    have hat' : itemAt entries i = .ok e := itemAt_eq_ok_iff.2 he
    simp only [scored?, hat, hat', hr, bind, Except.bind, pure, Except.pure]

end Hit
end ContentSearch
