import ContentSearch.Proofs.Highlight.Windows
import ContentSearch.Proofs.Search.Shown

/-!
# What is marked is text of the field

An excerpt is a run of the text of a field between ellipses, and what is marked in it is found in the finished excerpt, so
that an ellipsis may be taken for text.  It takes a full stop to do so.

* `inRun_or`: a part of an excerpt that is not a part of the run starts or ends with a full stop of an ellipsis;
* `exists_stop_of_highlight`: a pattern highlights a full stop only if the query seeks one;
* `IsFirstWord.getLast?_ne`: a word does not end with one, but may start with one;
* `run_marked`: so a search marks parts of the run, unless a full stop is sought or starts the nearest word.

A query for full stops marks the ellipses as well (`ellipses_marked`).
-/

namespace ContentSearch

open Text (byteLength)

/-! ## runs -/

namespace Excerpt

/-- A range of the characters of an excerpt is a part of its run, which stands after what stands for the text before it. -/
def InRun (before run : Text) (r : Nat × Nat) : Prop :=
  ∃ y w z, run = y ++ w ++ z ∧ w ≠ [] ∧
    r = ((dots before).length + y.length, (dots before).length + y.length + w.length)

theorem stop_of_mem_dots {omitted : Text} {c : Char} (h : c ∈ dots omitted) : omitted ≠ [] ∧ c = '.' := by
  unfold dots at h
  split at h
  · exact absurd h List.not_mem_nil
  · next hne => exact ⟨hne, by simpa [ellipsis] using h⟩

theorem exists_run_or {run after y w u : Text} (h : run ++ dots after = y ++ w ++ u) (hne : w ≠ []) :
    (∃ z, run = y ++ w ++ z) ∨ (after ≠ [] ∧ w.getLast? = some '.') := by
  rcases List.append_eq_append_iff.1 h with ⟨k, hk, hdots⟩ | ⟨z, hz, -⟩
  · rcases List.eq_nil_or_concat k with rfl | ⟨k, c, rfl⟩
    · exact .inl ⟨[], by rw [List.append_nil, hk, List.append_nil]⟩
    · obtain ⟨hafter, rfl⟩ := stop_of_mem_dots (show c ∈ dots after by rw [hdots]; simp)
      have hlast := congrArg List.getLast? hk
      rw [List.concat_eq_append, ← List.append_assoc, List.getLast?_concat, List.getLast?_append_of_ne_nil _ hne] at hlast
      exact .inr ⟨hafter, hlast⟩
  · exact .inl ⟨z, hz⟩

/-- **A part of an excerpt** is a part of its run, or starts in the first ellipsis, or ends in the second one. -/
theorem inRun_or {before run after s w u : Text} (h : dots before ++ run ++ dots after = s ++ w ++ u) (hne : w ≠ []) :
    InRun before run (s.length, s.length + w.length) ∨ (before ≠ [] ∧ w.head? = some '.') ∨
      (after ≠ [] ∧ w.getLast? = some '.') := by
  rw [List.append_assoc, List.append_assoc] at h
  rcases List.append_eq_append_iff.1 h with ⟨y, rfl, hrest⟩ | ⟨k, hdots, hk⟩
  · rw [← List.append_assoc] at hrest
    rcases exists_run_or hrest hne with ⟨z, hz⟩ | hlast
    · exact .inl ⟨y, w, z, hz, hne, by rw [List.length_append]⟩
    · exact .inr (.inr hlast)
  · cases k with
    | nil =>
      rcases exists_run_or (y := []) hk.symm hne with ⟨z, hz⟩ | hlast
      · exact .inl ⟨[], w, z, hz, hne, by rw [hdots, List.append_nil]; rfl⟩
      · exact .inr (.inr hlast)
    | cons c k =>
      obtain ⟨hbefore, rfl⟩ := stop_of_mem_dots (show c ∈ dots before by rw [hdots]; simp)
      obtain ⟨d, w, rfl⟩ := List.exists_cons_of_ne_nil hne
      refine .inr (.inl ⟨hbefore, ?_⟩)
      rw [(List.cons.inj hk).1]
      rfl

/-- If an excerpt starts otherwise than its text, its first characters are an ellipsis, and no part of the run. -/
theorem not_inRun_of_head? {t before run after e : Text} {a b : Nat} (hcuts : Cuts t before run after e)
    (hhead : e.head? ≠ t.head?) (ha : a < ellipsis.length) : ¬ InRun before run (a, b) := by
  rintro ⟨y, w, z, hrun, hne, hr⟩
  have hstart : a = (dots before).length + y.length := (Prod.mk.inj hr).1
  by_cases hbefore : before = []
  · -- the excerpt and the text both start with the run
    have hrunne : run ≠ [] := by
      rw [hrun]
      simp [hne]
    rw [hcuts.excerpt, ← hcuts.text, hbefore, dots_nil, List.nil_append,
      List.head?_append_of_ne_nil _ hrunne, List.head?_append_of_ne_nil _ hrunne] at hhead
    exact hhead rfl
  · rw [dots, if_neg hbefore] at hstart
    omega

end Excerpt

/-! ## full stops that are highlighted -/

/-- **A full stop is highlighted only if one is sought**, since nothing else folds to it. -/
theorem Pattern.exists_stop_of_highlight [PatternCompiler] {q : Query} {t : Text} {segs : List Segment}
    (hsegs : (ofQuery q).highlight t = .ok segs) {x : Segment} (hx : x ∈ segs) (hhighlighted : x.highlighted = true)
    (hmem : '.' ∈ x.text) : ∃ term, Highlight.IsSought q term ∧ '.' ∈ term := by
  have hlower : Text.lowercaseChar '.' = ['.'] := by decide +kernel
  have hfold : Text.fold '.' = '.' := by decide +kernel
  obtain ⟨term, hterm, hmap⟩ := exists_sought_of_highlight hsegs hx hhighlighted hlower hmem
  rw [hfold] at hmap
  obtain ⟨c, hc, hstop⟩ := List.mem_map.1 hmap
  obtain rfl := Text.eq_stop_of_fold hstop
  exact ⟨term, hterm, hc⟩

/-! ## fields -/

namespace FieldMatch

variable {name t : Text} {q : Query} {maxLength : Nat} {m : FieldMatch}

/-- What a pattern marks is a part of the run, unless a full stop is sought. -/
theorem exists_run_of_ofPattern [PatternCompiler] (hpos : 0 < maxLength) (hsize : t.length < wordSize)
    (h : ofPattern name (.ofQuery q) t maxLength = .ok m) :
    ∃ before run after, Excerpt.Cuts t before run after m.excerpt ∧ run.length = min maxLength t.length ∧
      ∀ r ∈ m.positions, Excerpt.InRun before run r ∨
        (before ≠ [] ∨ after ≠ []) ∧ ∃ term, Highlight.IsSought q term ∧ '.' ∈ term := by
  obtain ⟨excerpt, hexcerpt, h⟩ := exists_of_bind_eq_ok h
  obtain ⟨positions, hpositions, h⟩ := exists_of_bind_eq_ok h
  obtain rfl := Except.ok.inj h
  obtain ⟨anchor, hanchor, hpart⟩ := (Pattern.ofQuery q).exists_firstMatch t
  obtain ⟨e, before, run, after, hcut, hcuts, hlength⟩ := Excerpt.exists_cuts hpos hsize hpart
  rw [Excerpt.around, hanchor] at hexcerpt
  obtain rfl := Except.ok.inj (hexcerpt.symm.trans hcut)
  refine ⟨before, run, after, hcuts, hlength, ?_⟩
  obtain ⟨segs, hsegs, hflat, hne, -⟩ := (Pattern.ofQuery q).exists_highlight excerpt
  rw [Pattern.positions, hsegs] at hpositions
  obtain rfl := Except.ok.inj hpositions
  rintro ⟨a, b⟩ hr
  obtain ⟨pre, x, post, hsplit, hx, rfl, rfl⟩ := Pattern.mem_positionsFrom_iff.1 hr
  have hparts : Excerpt.dots before ++ run ++ Excerpt.dots after =
      pre.flatMap Segment.text ++ x.text ++ post.flatMap Segment.text := by
    rw [← hcuts.excerpt, ← hflat, hsplit]
    simp
  have hsought (hmem : '.' ∈ x.text) := Pattern.exists_stop_of_highlight hsegs (hsplit ▸ by simp) hx hmem
  rcases Excerpt.inRun_or hparts (hne x (by simp [hsplit]) (.inr hx)) with hin | ⟨hbefore, hhead⟩ | ⟨hafter, hlast⟩
  · left
    rw [Nat.zero_add]
    exact hin
  · exact .inr ⟨.inl hbefore, hsought (List.mem_of_mem_head? hhead)⟩
  · exact .inr ⟨.inr hafter, hsought (List.mem_of_getLast? hlast)⟩

/-- What is marked of a word is a part of the run, unless the word starts with a full stop. -/
theorem exists_run_of_ofWord {word s w u : Text} (hpos : 0 < maxLength) (hsize : t.length < wordSize)
    (hword : Text.IsFirstWord t word s w u) (h : ofWord name t ⟨byteLength s, byteLength s + byteLength w⟩ maxLength = .ok m) :
    ∃ before run after, Excerpt.Cuts t before run after m.excerpt ∧ run.length = min maxLength t.length ∧
      ∀ r ∈ m.positions, Excerpt.InRun before run r ∨ before ≠ [] ∧ w.head? = some '.' := by
  obtain ⟨word', hslice, h⟩ := exists_of_bind_eq_ok h
  obtain ⟨excerpt, hexcerpt, h⟩ := exists_of_bind_eq_ok h
  obtain rfl := Except.ok.inj h
  rw [← hword.append, Text.slice_part] at hslice
  obtain rfl := Except.ok.inj hslice
  have hpart : ∀ r, some (⟨byteLength s, byteLength s + byteLength w⟩ : Text.ByteRange) = some r → Text.IsPart t r := by
    intro r hr
    exact ⟨s, w, u, hword.append.symm, (Option.some.inj hr).symm⟩
  obtain ⟨e, before, run, after, hcut, hcuts, hlength⟩ := Excerpt.exists_cuts hpos hsize hpart
  obtain rfl := Except.ok.inj (hexcerpt.symm.trans hcut)
  refine ⟨before, run, after, hcuts, hlength, fun r hr => ?_⟩
  obtain ⟨n, hn, rfl⟩ := Option.map_eq_some_iff.1 (Option.mem_toList.1 hr)
  obtain ⟨hle, ⟨rest, hrest⟩, -⟩ := Text.find?_eq_some_iff.1 hn
  have hparts : Excerpt.dots before ++ run ++ Excerpt.dots after = excerpt.take n ++ w ++ rest := by
    rw [← hcuts.excerpt, List.append_assoc, hrest, List.take_append_drop]
  have hcount : (excerpt.take n).length = n := List.length_take_of_le hle
  rcases Excerpt.inRun_or hparts hword.ne_nil with hin | hhead | ⟨-, hlast⟩
  · rw [hcount] at hin
    exact .inl hin
  · exact .inr hhead
  · exact absurd hlast hword.getLast?_ne

end FieldMatch

/-- **What a search marks is text of the field**, unless a full stop is taken for one.  For every collection whose texts fit
into memory, every accepted configuration and every query text, the excerpt of a field that a search matches is a run of the
text of the field, as long as the excerpt may be, with an ellipsis on each side on which text is left out, and every range that
is marked is a part of this run, unless the query seeks a full stop and its pattern occurs in the text, or it does not occur
there and the nearest word starts with a full stop. -/
theorem run_marked {ι α : Type} [PatternCompiler] [Searchable ι] [Scalar α] [Scalar.LawfulArithmetic α] (items : List ι)
    (c : Config α) (t : Text) (hc : c.validate = .ok ())
    (hsize : ∀ item ∈ items, ∀ name v, attribute? item name = some v → v.toText.length < wordSize) :
    ∃ x, Index.build items c = .ok x ∧ ∃ hits : List (Hit ι α), search items x (.parse t) c = .ok hits ∧
      ∀ h ∈ hits, ∀ m ∈ h.matched, ∃ spec ∈ x.fields, spec.name = m.field ∧ ∃ before run after,
        Excerpt.Cuts (IndexedField.ofAttribute h.item m.field).text before run after m.excerpt ∧
        run.length = min c.excerptLength (IndexedField.ofAttribute h.item m.field).text.length ∧
        ∀ r ∈ m.positions, Excerpt.InRun before run r ∨
          (Pattern.ofQuery (.parse t)).occursIn (IndexedField.ofAttribute h.item m.field).text = true ∧
            (before ≠ [] ∨ after ≠ []) ∧ (∃ term, Highlight.IsSought (.parse t) term ∧ '.' ∈ term) ∨
          (Pattern.ofQuery (.parse t)).occursIn (IndexedField.ofAttribute h.item m.field).text = false ∧
            before ≠ [] ∧ ∃ word s w u,
              Matcher.IsNearest α (Query.parse t).terms (IndexedField.ofAttribute h.item m.field).words spec.fuzzy word ∧
              Text.IsFirstWord (IndexedField.ofAttribute h.item m.field).text word s w u ∧ w.head? = some '.' := by
  obtain ⟨h₀, h₁⟩ := Config.threshold_of_validate hc
  have hvalid : (Matcher.ofThreshold c.fuzzyThreshold).Valid := Matcher.valid_ofThreshold h₀ h₁
  have hpos := Config.excerptLength_of_validate hc
  obtain ⟨x, hbuild, hits, hsearch, hall⟩ := exists_search_shown items (.parse t) hc hsize
  refine ⟨x, hbuild, hits, hsearch, fun h hh m hm => ?_⟩
  obtain ⟨spec, hspec, hname, hfit, hfound, hshown⟩ := hall h hh m hm
  refine ⟨spec, hspec, hname, ?_⟩
  cases hoccurs : (Pattern.ofQuery (.parse t)).occursIn (IndexedField.ofAttribute h.item m.field).text with
  | true =>
    obtain ⟨before, run, after, hcuts, hlength, hmarked⟩ :=
      FieldMatch.exists_run_of_ofPattern hpos hfit (FieldMatch.ofPattern_of_ofField hoccurs hshown)
    exact ⟨before, run, after, hcuts, hlength, fun r hr => (hmarked r hr).imp_right fun h => .inl ⟨rfl, h⟩⟩
  | false =>
    cases hrange : FieldMatch.nearestRange? (.ofThreshold c.fuzzyThreshold) (Query.parse t).terms spec.fuzzy
        (.ofAttribute h.item m.field) with
    | some r =>
      obtain ⟨word, s, w, u, hnearest, hword, rfl⟩ := FieldMatch.exists_of_nearestRange? hvalid hrange
      obtain ⟨before, run, after, hcuts, hlength, hmarked⟩ :=
        FieldMatch.exists_run_of_ofWord hpos hfit hword (FieldMatch.ofWord_of_ofField hoccurs hrange hshown)
      refine ⟨before, run, after, hcuts, hlength, fun r hr => (hmarked r hr).imp_right fun h => .inr ⟨rfl, h.1, ?_⟩⟩
      exact ⟨word, s, w, u, hnearest, hword, h.2⟩
    | none =>
      -- without a nearest word, what was found occurs in the text, so that the pattern was not compiled
      have hrefused : (Pattern.ofQuery (.parse t)).accepted = false := by
        refine Bool.eq_false_iff.2 fun hcompiled => ?_
        obtain ⟨r, hr⟩ := Scorer.exists_nearestRange (IndexedField.coherent_ofAttribute h.item m.field)
          (fun u hu => Query.lower_of_mem_parse hu) hvalid hfound (Pattern.not_seeks_of_not_occursIn hcompiled hoccurs)
        exact Option.some_ne_none r (hr.symm.trans hrange)
      have hshown := FieldMatch.ofPattern_of_nearestRange? hrange hshown
      obtain ⟨before, run, after, hcuts, hlength, -⟩ := FieldMatch.exists_run_of_ofPattern hpos hfit hshown
      refine ⟨before, run, after, hcuts, hlength, fun r hr => ?_⟩
      rw [FieldMatch.positions_of_not_accepted hrefused hshown] at hr
      exact absurd hr List.not_mem_nil

/-- A configuration that searches titles and shows at most so many characters of them. -/
def shortTitles (n : Nat) : Config Rat := { titles with excerptLength := n }

theorem run_marked_short :
    ∃ x, Index.build [titled "one two three four five".toList] (shortTitles 10) = .ok x ∧ ∃ hits : List (Hit Json Rat),
      search [titled "one two three four five".toList] x (.parse "three".toList) (shortTitles 10) = .ok hits ∧
      hits.map Hit.matched = [[⟨"title".toList, "...wo three f...".toList, [(6, 11)]⟩]] ∧
      ∀ h ∈ hits, ∀ m ∈ h.matched, ∃ before run after,
        Excerpt.Cuts "one two three four five".toList before run after m.excerpt ∧ run.length = 10 := by
  obtain ⟨x, hx, hits, hsearch, hall⟩ :=
    run_marked [titled "one two three four five".toList] (shortTitles 10) "three".toList (by decide +kernel)
      (length_titled_lt (by decide))
  have hshown : shownBy (shortTitles 10) "one two three four five".toList "three".toList =
      some [[⟨"title".toList, "...wo three f...".toList, [(6, 11)]⟩]] := by decide +kernel
  obtain ⟨hmatched, htitle⟩ := matched_of_shownBy hshown rfl hx hsearch
  refine ⟨x, hx, hits, hsearch, hmatched, fun h hh m hm => ?_⟩
  obtain ⟨-, -, -, before, run, after, hcuts, hlength, -⟩ := hall h hh m hm
  rw [htitle h hh m hm] at hcuts hlength
  exact ⟨before, run, after, hcuts, hlength⟩

/-- **An ellipsis may be taken for text.**  A query for an ellipsis marks the one in the title, and those that the excerpt adds
to it. So does a word that starts with a full stop, where an ellipsis stands before its other characters. -/
theorem ellipses_marked :
    shownBy (shortTitles 7) "one two ... three four".toList "...".toList =
        some [[⟨"title".toList, "...o ... t...".toList, [(0, 3), (5, 8), (10, 13)]⟩]] ∧
      (∀ before run after, Excerpt.Cuts "one two ... three four".toList before run after "...o ... t...".toList →
        ¬ Excerpt.InRun before run (0, 3)) ∧
      shownBy { shortTitles 6 with fuzzyThreshold := 2 / 5 } "xx\u200DⓂ .\u200DⓂ".toList "y\u200Dⓜ".toList =
        some [[⟨"title".toList, "...\u200DⓂ .\u200DⓂ".toList, [(2, 5)]⟩]] ∧
      ∀ before run after, Excerpt.Cuts "xx\u200DⓂ .\u200DⓂ".toList before run after "...\u200DⓂ .\u200DⓂ".toList →
        ¬ Excerpt.InRun before run (2, 5) := by
  refine ⟨by decide +kernel, fun before run after hcuts => ?_, by decide +kernel, fun before run after hcuts => ?_⟩
  · exact Excerpt.not_inRun_of_head? hcuts (by decide) (by decide)
  · exact Excerpt.not_inRun_of_head? hcuts (by decide) (by decide)

end ContentSearch
