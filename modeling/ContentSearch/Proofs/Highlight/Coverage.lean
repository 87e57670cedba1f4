import ContentSearch.Highlight.Compiler
import ContentSearch.Proofs.Highlight.Scan
import ContentSearch.Proofs.Highlight.Segments

/-!
# Which characters are highlighted

A match lies in the lowercase copy of a text, but the text itself is highlighted, in whole characters and without overlap.
`covers_ranges_iff` says what comes of this: clipping takes nothing away that an earlier match does not cover, so that the
ranges of the text are those of the characters whose lowercase forms *meet* a match.

* `covers_clip_iff`: clipped ranges cover what the ranges cover;
* `highlights_iff`: the characters in highlighted segments are those whose lowercase forms meet a match;
* `exists_firstMatch_part`, `exists_sought_of_highlight`: what is sought occurs in the first match, and has the characters
  that are highlighted;
* `highlight_scan`: so with the leftmost-longest scan it is known what is highlighted, for every query and every text.

A character whose form has several characters may be highlighted though its form does not lie in a match
(`dotted_highlighted`).
-/

namespace ContentSearch

open Text (ByteRange byteLength)

/-- Two ranges meet if they have a byte in common. -/
def Text.ByteRange.Meets (r r' : ByteRange) : Prop := r.start < r'.stop ∧ r'.start < r.stop

def Text.ByteRange.Within (r r' : ByteRange) : Prop := r'.start ≤ r.start ∧ r.stop ≤ r'.stop

/-! ## lowercase forms in the copy -/

namespace Folded

variable {t s m u before after : Text} {c d : Char}

/-- The place in the copy of what a character after `before` is lowered to. -/
def formRange (before : Text) (c : Char) : ByteRange := ⟨byteLength (lowerEach before), byteLength (lowerEach (before ++ [c]))⟩

theorem lowerEach_concat (hc : Text.lowercaseChar c = [d]) (t : Text) : lowerEach (t ++ [c]) = lowerEach t ++ [d] := by
  rw [lowerEach_append]
  simp [lowerEach, hc]

/-- A form of one character that meets a part of the copy lies in it. -/
theorem within_of_meets (htext : t = before ++ c :: after) (h : lowerEach t = s ++ m ++ u) (hc : Text.lowercaseChar c = [d])
    (hmeets : (formRange before c).Meets ⟨byteLength s, byteLength s + byteLength m⟩) :
    (formRange before c).Within ⟨byteLength s, byteLength s + byteLength m⟩ := by
  have hform := lowerEach_concat hc before
  have hcopy : lowerEach t = lowerEach before ++ d :: lowerEach after := by
    rw [htext, List.append_cons, lowerEach_append, hform, ← List.append_cons]
  obtain ⟨hstart, hstop⟩ := hmeets
  simp only [formRange, hform] at hstart hstop ⊢
  constructor
  · exact byteLength_le_of_lt (by rw [← hcopy, h, List.append_assoc]) hstop
  · refine Nat.le_of_not_lt fun hlt => ?_
    have hle := byteLength_le_of_lt (s := s ++ m) (h.symm.trans hcopy) (by simpa using hlt)
    rw [Text.byteLength_append] at hle
    omega

/-- A part of a text holds the forms of its own characters only. -/
theorem IsOrigin.forms {w : Text} {r : ByteRange}
    (h : IsOrigin (before ++ w ++ after) r ⟨byteLength before, byteLength before + byteLength w⟩)
    (hr : r.stop ≤ byteLength (lowerEach (before ++ w ++ after))) :
    byteLength (lowerEach before) ≤ r.start ∧ r.stop ≤ byteLength (lowerEach (before ++ w)) := by
  constructor
  · -- the character before the part does not meet the range
    rcases List.eq_nil_or_concat before with rfl | ⟨v, c, rfl⟩
    · exact Nat.zero_le _
    · rw [List.concat_eq_append] at h ⊢
      have hc := Char.utf8Size_pos c
      refine Nat.le_of_not_lt fun hlt => ?_
      have hle := (h.start_le_iff v c (w ++ after) (by simp)).2 hlt
      simp only [Text.byteLength_append, Text.byteLength_cons] at hle
      omega
  · -- nor does the character after it
    cases after with
    | nil => rwa [List.append_nil] at hr
    | cons c after =>
      refine Nat.le_of_not_lt fun hlt => ?_
      have hlt' := (h.lt_stop_iff (before ++ w) c after rfl).2 hlt
      rw [Text.byteLength_append] at hlt'
      exact absurd hlt' (Nat.lt_irrefl _)

end Folded

/-! ## ranges -/

namespace Pattern

open Folded

/-- Some range holds an offset. -/
def Covers (l : List ByteRange) (n : Nat) : Prop := ∃ r ∈ l, r.start ≤ n ∧ n < r.stop

theorem covers_cons_iff {r : ByteRange} {l : List ByteRange} {n : Nat} :
    Covers (r :: l) n ↔ (r.start ≤ n ∧ n < r.stop) ∨ Covers l n := by
  simp [Covers]

/-- **Clipped ranges cover what the ranges cover** from `last` on, if the ranges are in the order of their beginnings: what a
range loses lies in an earlier one. -/
theorem covers_clip_iff {l : List ByteRange} (hl : l.Pairwise fun r r' => r.start ≤ r'.start) {last n : Nat} :
    Covers (clip last l) n ↔ last ≤ n ∧ Covers l n := by
  induction l generalizing last with
  | nil => simp [clip, Covers]
  | cons r l ih =>
    obtain ⟨hr, hl⟩ := List.pairwise_cons.1 hl
    rw [clip, covers_cons_iff]
    split
    · rw [ih hl]
      constructor
      · rintro ⟨hn, hcovers⟩
        exact ⟨hn, .inr hcovers⟩
      · rintro ⟨hn, hcovers | hcovers⟩
        · omega
        · exact ⟨hn, hcovers⟩
    · rw [covers_cons_iff, ih hl]
      dsimp only
      constructor
      · rintro (⟨hstart, hstop⟩ | ⟨hn, hcovers⟩)
        · exact ⟨by omega, .inl ⟨by omega, hstop⟩⟩
        · exact ⟨by omega, .inr hcovers⟩
      · rintro ⟨hn, ⟨hstart, hstop⟩ | hcovers⟩
        · exact .inl ⟨by omega, hstop⟩
        · obtain ⟨r', hr', hstart', -⟩ := id hcovers
          have hle := hr r' hr'
          rcases Nat.lt_or_ge n r.stop with hstop | hstop
          · exact .inl ⟨by omega, hstop⟩
          · exact .inr ⟨hstop, hcovers⟩

theorem pairwise_matchesFrom (p : Pattern) (offset : Nat) (t : Text) :
    (p.matchesFrom offset t).Pairwise fun r r' => r.start ≤ r'.start := by
  fun_induction matchesFrom p offset t with
  | case1 => exact .nil
  | case2 _ _ _ _ ih => exact ih
  | case3 offset c t n _ stop ih =>
    refine .cons (fun r hr => ?_) ih
    obtain ⟨s, m, u, -, -, rfl⟩ := exists_of_mem_matchesFrom hr
    show offset ≤ stop + byteLength s
    simp only [stop]
    omega

/-- **What the ranges of a text cover** are the characters whose lowercase forms meet a match. -/
theorem covers_ranges_iff {p : Pattern} {t before after : Text} {c : Char} {l : List ByteRange} (hl : p.ranges t = .ok l)
    (htext : t = before ++ c :: after) :
    Covers l (byteLength before) ↔ ∃ r ∈ p.foldedMatches (ofText t), (formRange before c).Meets r := by
  obtain ⟨os, hall, hos⟩ := exists_origins p t
  obtain rfl := Except.ok.inj (hl.symm.trans hos)
  have horder : os.Pairwise fun o o' => o.start ≤ o'.start :=
    pairwise_of_forall₂ hall (p.pairwise_matchesFrom 0 _) fun h h' hle => h.start_le h' hle
  have hmeets {r o : ByteRange} (h : IsOrigin t r o) :
      (o.start ≤ byteLength before ∧ byteLength before < o.stop) ↔ (formRange before c).Meets r := by
    rw [h.start_le_iff before c after htext, h.lt_stop_iff before c after htext]
    exact and_comm
  rw [covers_clip_iff horder]
  constructor
  · rintro ⟨-, o, ho, hcovers⟩
    obtain ⟨r, hr, h⟩ := exists_of_mem_right hall ho
    exact ⟨r, hr, (hmeets h).1 hcovers⟩
  · rintro ⟨r, hr, hcovers⟩
    obtain ⟨o, ho, h⟩ := exists_of_mem_left hall hr
    exact ⟨Nat.zero_le _, o, ho, (hmeets h).2 hcovers⟩

/-! ## segments -/

/-- A character after `before` stands in a highlighted segment. -/
def Highlights (segs : List Segment) (before : Text) (c : Char) : Prop :=
  ∃ pre x post a b, segs = pre ++ x :: post ∧ x.highlighted = true ∧ x.text = a ++ c :: b ∧
    before = pre.flatMap Segment.text ++ a

/-- A text is what stands before a character of one of its segments, the character, and what stands after it. -/
theorem eq_of_split {t a b : Text} {c : Char} {segs pre post : List Segment} {x : Segment}
    (hflat : segs.flatMap Segment.text = t) (hsplit : segs = pre ++ x :: post) (hchar : x.text = a ++ c :: b) :
    t = (pre.flatMap Segment.text ++ a) ++ c :: (b ++ post.flatMap Segment.text) := by
  rw [← hflat, hsplit]
  simp [hchar]

/-- A character stands in a highlighted segment if its offset lies in the range of one. -/
theorem highlights_iff_spans {segs : List Segment} {before after : Text} {c : Char}
    (htext : segs.flatMap Segment.text = before ++ c :: after) :
    Highlights segs before c ↔
      ∃ a b, (a, b) ∈ spansFrom byteLength 0 segs ∧ a ≤ byteLength before ∧ byteLength before < b := by
  simp only [mem_spansFrom_iff Text.byteLength_nil Text.byteLength_append, Nat.zero_add]
  constructor
  · rintro ⟨pre, x, post, a, b, rfl, hx, hchar, rfl⟩
    refine ⟨_, _, ⟨pre, x, post, rfl, hx, rfl, rfl⟩, ?_, ?_⟩
    · rw [Text.byteLength_append]
      exact Nat.le_add_right ..
    · have hc := Char.utf8Size_pos c
      rw [hchar]
      simp only [Text.byteLength_append, Text.byteLength_cons]
      omega
  · rintro ⟨_, _, ⟨pre, x, post, rfl, hx, rfl, rfl⟩, hstart, hstop⟩
    rw [List.flatMap_append, List.flatMap_cons] at htext
    obtain ⟨a, rfl, hrest⟩ := Text.exists_prefix_of_le htext hstart
    rw [Text.byteLength_append] at hstop
    obtain ⟨k, hk, hc⟩ := Text.exists_prefix_of_le hrest.symm (Nat.le_of_lt (Nat.lt_of_add_lt_add_left hstop))
    cases k with
    | nil =>
      rw [hk, List.append_nil] at hstop
      exact absurd hstop (Nat.lt_irrefl _)
    | cons d k =>
      obtain rfl : c = d := (List.cons.inj hc).1
      exact ⟨pre, x, post, a, k, rfl, hx, hk, rfl⟩

/-- **The characters in highlighted segments** are those whose lowercase forms meet a match. -/
theorem highlights_iff {p : Pattern} {t before after : Text} {c : Char} {segs : List Segment} (hsegs : p.highlight t = .ok segs)
    (htext : t = before ++ c :: after) :
    Highlights segs before c ↔ ∃ r ∈ p.foldedMatches (ofText t), (formRange before c).Meets r := by
  obtain ⟨segs', l, hsegs', hl, hflat, -, -, hspans⟩ := exists_highlight_ranges p t
  obtain rfl := Except.ok.inj (hsegs.symm.trans hsegs')
  rw [highlights_iff_spans (hflat.trans htext), ← covers_ranges_iff hl htext, hspans]
  simp [Covers]

theorem exists_highlights {p : Pattern} {t : Text} {segs : List Segment} (hsegs : p.highlight t = .ok segs) {r : ByteRange}
    (hr : r ∈ p.foldedMatches (ofText t)) {i : Nat} (hstart : r.start ≤ i) (hstop : i < r.stop) :
    ∃ before c, Highlights segs before c ∧ (formRange before c).start ≤ i ∧ i < (formRange before c).stop := by
  have hlt : i < byteLength (lowerEach t) := by
    obtain ⟨s, m, u, hcopy, -, rfl⟩ := exists_of_mem_matchesFrom hr
    rw [lower_ofText] at hcopy
    rw [hcopy, Text.byteLength_append, Text.byteLength_append]
    dsimp only at hstop
    omega
  obtain ⟨before, c, after, htext, hi, hj, -⟩ := exists_origin hlt 0
  exact ⟨before, c, (highlights_iff hsegs htext).2 ⟨r, hr, Nat.lt_of_le_of_lt hi hstop, Nat.lt_of_le_of_lt hstart hj⟩, hi, hj⟩

end Pattern

/-! ## queries -/

namespace Pattern

open Folded Highlight

/-- **The first match in a text** is a part of it that is not empty, and what is sought occurs in this part. -/
theorem exists_firstMatch_part [PatternCompiler] (q : Query) {t : Text} (h : (ofQuery q).occursIn t = true) :
    ∃ before w after, t = before ++ w ++ after ∧ w ≠ [] ∧ (ofQuery q).occursIn w = true ∧
      (ofQuery q).firstMatch t = .ok (some ⟨byteLength before, byteLength before + byteLength w⟩) := by
  have hscan := scan_tried q t
  cases hmatches : (ofQuery q).foldedMatches (ofText t) with
  | nil => simp [occursIn, hmatches] at h
  | cons r l =>
    obtain ⟨o, horigin, hfirst⟩ := exists_firstMatch_origin hmatches
    obtain ⟨before, w, after, rfl, hne, rfl⟩ := horigin.exists_part
    refine ⟨before, w, after, rfl, hne, ?_, hfirst⟩
    rw [hmatches] at hscan
    obtain ⟨s, m, u, hcopy, ⟨-, term, hterm, hfold⟩, hrange⟩ := hscan.exists_of_mem List.mem_cons_self
    rw [Nat.zero_add] at hrange
    -- the match lies in the forms of the part
    obtain ⟨hstart, hstop⟩ := horigin.forms (by
      rw [hcopy, hrange, Text.byteLength_append, Text.byteLength_append]
      exact Nat.le_add_right ..)
    rw [hrange] at hstart hstop
    rw [lowerEach_append, lowerEach_append] at hcopy
    rw [lowerEach_append, Text.byteLength_append] at hstop
    refine (occursIn_iff (nil_not_mem_ofQuery q)).2 ⟨term, hterm, ?_⟩
    rw [← hfold]
    exact (Text.infix_of_le hcopy.symm hstart hstop).map Text.fold

/-- A highlighted character whose form is one character is in what is sought, up to folding: its form lies in a match. -/
theorem exists_sought_of_highlight [PatternCompiler] {q : Query} {t : Text} {segs : List Segment}
    (hsegs : (ofQuery q).highlight t = .ok segs) {x : Segment} (hx : x ∈ segs) (hhighlighted : x.highlighted = true)
    {c d : Char} (hc : Text.lowercaseChar c = [d]) (hmem : c ∈ x.text) : ∃ term, IsSought q term ∧ Text.fold d ∈ term.map Text.fold := by
  obtain ⟨segs', hsegs', hflat, -⟩ := (ofQuery q).exists_highlight t
  obtain rfl := Except.ok.inj (hsegs.symm.trans hsegs')
  obtain ⟨pre, post, hsplit⟩ := List.append_of_mem hx
  obtain ⟨a, b, hchar⟩ := List.append_of_mem hmem
  have htext := eq_of_split hflat hsplit hchar
  obtain ⟨r, hr, hmeets⟩ := (highlights_iff hsegs htext).1 ⟨pre, x, post, a, b, hsplit, hhighlighted, hchar, rfl⟩
  obtain ⟨s, m, u, hcopy, ⟨-, term, hterm, hfold⟩, rfl⟩ := (scan_tried q t).exists_of_mem hr
  rw [Nat.zero_add] at hmeets
  obtain ⟨hstart, hstop⟩ := within_of_meets htext hcopy hc hmeets
  have hmatch : [d] <:+: m := by
    rw [htext, List.append_cons, lowerEach_append, lowerEach_concat hc] at hcopy
    simp only [formRange, lowerEach_concat hc, Text.byteLength_append] at hstart hstop
    exact Text.infix_of_le hcopy hstart hstop
  exact ⟨term, (mem_tried_ofQuery.1 hterm).2.2, hfold ▸ List.mem_map_of_mem (hmatch.subset List.mem_cons_self)⟩

/-- **Highlighting is the leftmost-longest scan.**  For every query whose pattern was compiled and every text, the matches in
the lowercase copy of the text are those of the scan that goes on from the end of the match before to the earliest occurrence of
what the query seeks, and takes the longest one there. The text is cut into segments; every occurrence in the copy meets the
form of a character of a highlighted segment, and a highlighted segment has characters, each of which has a form that meets a
match, and lies in it if it is one character. -/
theorem highlight_scan [PatternCompiler] (q : Query) (hq : (ofQuery q).accepted = true) (t : Text) :
    (∀ l, Scan (Occurs (IsSought q)) 0 (lowerEach t) l ↔ l = (ofQuery q).foldedMatches (ofText t)) ∧
      ∃ segs, (ofQuery q).highlight t = .ok segs ∧ segs.flatMap Segment.text = t ∧
        (∀ s m u, lowerEach t = s ++ m ++ u → Occurs (IsSought q) m →
          ∃ before c, Highlights segs before c ∧ (formRange before c).Meets ⟨byteLength s, byteLength s + byteLength m⟩) ∧
        ∀ pre x post, segs = pre ++ x :: post → x.highlighted = true → x.text ≠ [] ∧
          ∀ a c b, x.text = a ++ c :: b → ∃ r ∈ (ofQuery q).foldedMatches (ofText t),
            (formRange (pre.flatMap Segment.text ++ a) c).Meets r ∧
            (∀ d, Text.lowercaseChar c = [d] → (formRange (pre.flatMap Segment.text ++ a) c).Within r) := by
  have hscan := scan_foldedMatches hq t
  obtain ⟨segs, hsegs, hflat, hne, -⟩ := exists_highlight (ofQuery q) t
  refine ⟨fun l => ⟨fun h => h.unique hscan, fun h => h ▸ hscan⟩, segs, hsegs, hflat, ?_, ?_⟩
  · intro s m u hcopy hm
    obtain ⟨r, hr, hstart, hstop⟩ := hscan.exists_overlap hcopy hm hm.1
    rw [Nat.zero_add] at hstart hstop
    -- the first byte that the occurrence and the match have in common
    have hpos := Text.byteLength_pos hm.1
    have hlt : r.start < r.stop := by
      obtain ⟨s', m', u', -, hm', rfl⟩ := hscan.exists_of_mem hr
      have hpos' := Text.byteLength_pos hm'.1
      dsimp only
      omega
    obtain ⟨before, c, hc, hi, hj⟩ :=
      exists_highlights hsegs hr (Nat.le_max_left r.start (byteLength s)) (Nat.max_lt.2 ⟨hlt, hstop⟩)
    refine ⟨before, c, hc, ?_, ?_⟩
    · show _ < byteLength s + byteLength m
      omega
    · show byteLength s < _
      omega
  · intro pre x post hsplit hx
    refine ⟨hne x (by simp [hsplit]) (.inr hx), fun a c b hchar => ?_⟩
    have htext := eq_of_split hflat hsplit hchar
    obtain ⟨r, hr, hmeets⟩ := (highlights_iff hsegs htext).1 ⟨pre, x, post, a, b, hsplit, hx, hchar, rfl⟩
    obtain ⟨s, m, u, hcopy, -, rfl⟩ := hscan.exists_of_mem hr
    rw [Nat.zero_add] at hmeets hr
    exact ⟨_, hr, hmeets, fun d hd => within_of_meets htext hcopy hd hmeets⟩

theorem highlight_scan_nested :
    (ofQuery (.parse "rusty rust".toList)).accepted = true ∧
      Scan (Occurs (IsSought (.parse "rusty rust".toList))) 0 (lowerEach "Rusty Rust".toList) [⟨0, 5⟩, ⟨6, 10⟩] ∧
      ∃ segs, (ofQuery (.parse "rusty rust".toList)).highlight "Rusty Rust".toList = .ok segs ∧
        segs = [⟨"Rusty".toList, true⟩, ⟨" ".toList, false⟩, ⟨"Rust".toList, true⟩] := by
  have hpattern : ofQuery (.parse "rusty rust".toList) = ⟨["rusty".toList, "rust".toList], true⟩ :=
    ofQuery_eq (terms_of_pairwise (l := ["rusty".toList, "rust".toList]) (by decide +kernel) (by decide +kernel))
      (by decide +kernel)
  have hcompiled : (ofQuery (.parse "rusty rust".toList)).accepted = true := by rw [hpattern]
  have hmatches : [⟨0, 5⟩, ⟨6, 10⟩] = (ofQuery (.parse "rusty rust".toList)).foldedMatches (ofText "Rusty Rust".toList) := by
    rw [hpattern]
    decide +kernel
  have hsegments : (ofQuery (.parse "rusty rust".toList)).highlight "Rusty Rust".toList =
      .ok [⟨"Rusty".toList, true⟩, ⟨" ".toList, false⟩, ⟨"Rust".toList, true⟩] := by
    rw [hpattern]
    decide +kernel
  obtain ⟨hscan, segs, hsegs, -⟩ := highlight_scan _ hcompiled "Rusty Rust".toList
  exact ⟨hcompiled, (hscan _).2 hmatches, segs, hsegs, Except.ok.inj (hsegs.symm.trans hsegments)⟩

/-- **The dotted capital is highlighted as a whole.**  Its form is an `i` with a combining dot, of which only the `i` matches. -/
theorem dotted_highlighted :
    (ofQuery (.parse "i".toList)).accepted = true ∧
      (ofQuery (.parse "i".toList)).highlight "İ".toList = .ok [⟨"İ".toList, true⟩] ∧
      formRange [] 'İ' = ⟨0, 3⟩ ∧
      ∀ r ∈ (ofQuery (.parse "i".toList)).foldedMatches (ofText "İ".toList), r = ⟨0, 1⟩ ∧ ¬ (formRange [] 'İ').Within r := by
  have hform : formRange [] 'İ' = ⟨0, 3⟩ := by decide +kernel
  have hmatches : (ofQuery (.parse "i".toList)).foldedMatches (ofText "İ".toList) = [⟨0, 1⟩] := by decide +kernel
  refine ⟨by decide +kernel, by decide +kernel, hform, fun r hr => ?_⟩
  rw [hmatches, List.mem_singleton] at hr
  rw [hr, hform]
  exact ⟨rfl, fun hwithin => absurd hwithin.2 (by decide)⟩

end Pattern
end ContentSearch
