import ContentSearch.Proofs.Highlight.Coverage
import ContentSearch.Proofs.Highlight.Excerpts
import Mathlib.Tactic.TFAE

/-!
# The answers about a text agree

Whether a pattern occurs in a text is asked of the matches in the lowercase copy, the first match is looked up in the text,
and the segments are cut at the matches after these have been clipped.  The first match is never lost in this: it comes from
a part of the text that is not empty, and nothing before it is cut off (`exists_ranges_of_cons`).

* `spansFrom_eq_nil_iff`, `exists_of_spansFrom_eq_cons`: the first of the spans is that of the first highlighted segment;
* `exists_ranges_of_cons`, `ranges_of_eq_nil`: the first match of a text is the first of its ranges;
* `exists_first_highlighted`, `positions_ne_nil_iff`: a text has a first match, a highlighted segment and a position if the
  pattern occurs in it, and not otherwise;
* `Excerpt.first_append`: an excerpt of several texts is one of the first in which the pattern occurs;
* `answers_agree`: so all answers to whether a query matches a text are one, and that is where its first match is.
-/

namespace ContentSearch

open Text (ByteRange byteLength)

namespace Pattern

/-! ## the first highlighted segment -/

/-- The range of bytes of the first highlighted one of the segments of a text. -/
def IsFirstHighlighted (segs : List Segment) (r : ByteRange) : Prop :=
  ∃ pre x post, segs = pre ++ x :: post ∧ (∀ y ∈ pre, y.highlighted = false) ∧ x.highlighted = true ∧
    r = ⟨byteLength (pre.flatMap Segment.text), byteLength (pre.flatMap Segment.text) + byteLength x.text⟩

theorem spansFrom_eq_nil_iff {size : Text → Nat} {offset : Nat} {segs : List Segment} :
    spansFrom size offset segs = [] ↔ ∀ x ∈ segs, x.highlighted = false := by
  induction segs generalizing offset with
  | nil => simp [spansFrom]
  | cons x segs ih =>
    rw [spansFrom, List.append_eq_nil_iff, ih, List.forall_mem_cons]
    cases x.highlighted <;> simp

theorem spansFrom_ne_nil_iff {size : Text → Nat} {offset : Nat} {segs : List Segment} :
    spansFrom size offset segs ≠ [] ↔ ∃ x ∈ segs, x.highlighted = true := by
  rw [Ne, spansFrom_eq_nil_iff]
  simp

/-- The first span comes after the segments before the first highlighted one, which are plain. -/
theorem exists_of_spansFrom_eq_cons {offset a b : Nat} {segs : List Segment} {l : List (Nat × Nat)}
    (h : spansFrom byteLength offset segs = (a, b) :: l) :
    ∃ pre x post, segs = pre ++ x :: post ∧ (∀ y ∈ pre, y.highlighted = false) ∧ x.highlighted = true ∧
      a = offset + byteLength (pre.flatMap Segment.text) ∧ b = a + byteLength x.text := by
  induction segs generalizing offset with
  | nil => simp [spansFrom] at h
  | cons y segs ih =>
    rw [spansFrom] at h
    cases hy : y.highlighted with
    | true =>
      rw [hy, if_pos rfl, List.singleton_append] at h
      obtain ⟨rfl, rfl⟩ := Prod.mk.inj (List.cons.inj h).1
      exact ⟨[], y, segs, rfl, by simp, hy, by simp, rfl⟩
    | false =>
      rw [hy, if_neg Bool.false_ne_true, List.nil_append] at h
      obtain ⟨pre, x, post, rfl, hpre, hx, ha, hb⟩ := ih h
      refine ⟨y :: pre, x, post, rfl, List.forall_mem_cons.2 ⟨hy, hpre⟩, hx, ?_, hb⟩
      rw [List.flatMap_cons, Text.byteLength_append]
      omega

/-! ## the first range -/

variable {p : Pattern} {t : Text}

theorem ranges_of_eq_nil (h : p.foldedMatches (Folded.ofText t) = []) : p.ranges t = .ok [] := by
  unfold ranges
  simp only [h]
  rfl

/-- Where there is a match, clipping does not drop the first one, and takes nothing away from it. -/
theorem exists_ranges_of_cons {r : ByteRange} {l : List ByteRange} (h : p.foldedMatches (Folded.ofText t) = r :: l) :
    ∃ o os, p.firstMatch t = .ok (some o) ∧ p.ranges t = .ok (o :: os) := by
  have horigins : ∀ r' ∈ r :: l, ∃ o, (Folded.ofText t).originRange r' = .ok o ∧ Folded.IsOrigin t r' o := by
    intro r' hr'
    exact exists_origin_of_mem (h ▸ hr')
  obtain ⟨horigin, hrest⟩ := List.forall_mem_cons.1 horigins
  obtain ⟨o, ho, hpart⟩ := horigin
  obtain ⟨os, hos, -⟩ := exists_mapM_eq_ok hrest
  have hclip : clip 0 (o :: os) = o :: clip o.stop os := by
    have hlt := hpart.lt
    rw [clip, Nat.max_eq_left (Nat.zero_le _), if_neg (by omega)]
  refine ⟨o, clip o.stop os, ?_, ?_⟩
  · unfold firstMatch
    simp only [h, ho]
    rfl
  · unfold ranges
    simp only [h, List.mapM_cons, ho, hos, bind, Except.bind, pure, Except.pure, hclip]

/-- There is a first match and a highlighted segment exactly where the pattern occurs, and the one is the first of the
others. -/
theorem exists_first_highlighted (p : Pattern) (t : Text) :
    ∃ segs first, p.highlight t = .ok segs ∧ p.firstMatch t = .ok first ∧
      (first.isSome = true ↔ p.occursIn t = true) ∧ ((∃ x ∈ segs, x.highlighted = true) ↔ p.occursIn t = true) ∧
      ∀ r, first = some r → IsFirstHighlighted segs r := by
  obtain ⟨segs, l, hsegs, hl, -, -, -, hspans⟩ := exists_highlight_ranges p t
  cases hmatches : p.foldedMatches (Folded.ofText t) with
  | nil =>
    have hoccurs : p.occursIn t = false := by simp [occursIn, hmatches]
    obtain rfl : l = [] := Except.ok.inj (hl.symm.trans (ranges_of_eq_nil hmatches))
    have hplain := spansFrom_eq_nil_iff.1 hspans
    refine ⟨segs, none, hsegs, firstMatch_of_eq_nil hmatches, ?_, ?_, by simp⟩
    · simp [hoccurs]
    · simpa [hoccurs] using hplain
  | cons r rest =>
    have hoccurs : p.occursIn t = true := by simp [occursIn, hmatches]
    obtain ⟨o, os, hfirst, hranges⟩ := exists_ranges_of_cons hmatches
    obtain rfl : l = o :: os := Except.ok.inj (hl.symm.trans hranges)
    obtain ⟨pre, x, post, rfl, hpre, hx, hstart, hstop⟩ := exists_of_spansFrom_eq_cons hspans
    rw [Nat.zero_add] at hstart
    refine ⟨_, some o, hsegs, hfirst, by simp [hoccurs], ?_, ?_⟩
    · have hmem : x ∈ pre ++ x :: post := by simp
      exact ⟨fun _ => hoccurs, fun _ => ⟨x, hmem, hx⟩⟩
    · intro o' ho
      obtain rfl := Option.some.inj ho
      refine ⟨pre, x, post, rfl, hpre, hx, ?_⟩
      rw [← hstart, ← hstop]

theorem positions_ne_nil_iff {l : List (Nat × Nat)} (hl : p.positions t = .ok l) : l ≠ [] ↔ p.occursIn t = true := by
  obtain ⟨segs, -, hsegs, -, -, hhighlighted, -⟩ := exists_first_highlighted p t
  rw [positions, hsegs] at hl
  obtain rfl := Except.ok.inj hl
  rw [positionsFrom_eq_spansFrom, spansFrom_ne_nil_iff]
  exact hhighlighted

end Pattern

/-! ## excerpts of several texts -/

theorem Excerpt.first_append {p : Pattern} {before after : List Text} {t : Text} (maxLength : Nat)
    (hbefore : ∀ u ∈ before, p.occursIn u = false) (ht : p.occursIn t = true) :
    first p (before ++ t :: after) maxLength = around p t maxLength := by
  have hfind : (before ++ t :: after).find? p.occursIn = some t := by
    rw [List.find?_append, List.find?_eq_none.2 (by simpa using hbefore), List.find?_cons_of_pos ht]
    rfl
  rw [first, hfind]
  rfl

/-! ## queries -/

namespace Pattern

/-- **The answers about a text agree.**  For every query and every text, it is the same whether the pattern was compiled and
something that is sought occurs in the lowercase copy of the text, whether the pattern is said to occur, whether there is a
first match, whether there are positions, and whether a segment is highlighted; and the first match is the range of bytes of
the first highlighted segment. Of any texts, the first one for which this is so is shown, around its first match. -/
theorem answers_agree [PatternCompiler] (q : Query) :
    (∀ t, ∃ segs l first, (ofQuery q).highlight t = .ok segs ∧ (ofQuery q).positions t = .ok l ∧
      (ofQuery q).firstMatch t = .ok first ∧
      List.TFAE [(ofQuery q).accepted = true ∧ Seeks q t, (ofQuery q).occursIn t = true, first.isSome = true, l ≠ [],
        ∃ x ∈ segs, x.highlighted = true] ∧
      ∀ r, first = some r → IsFirstHighlighted segs r) ∧
    ∀ before t after, (∀ u ∈ before, (ofQuery q).occursIn u = false) → (ofQuery q).occursIn t = true → ∀ maxLength,
      ∃ r, (ofQuery q).firstMatch t = .ok (some r) ∧
        Excerpt.first (ofQuery q) (before ++ t :: after) maxLength = Excerpt.cut t (some r) maxLength ∧
        (t.length < wordSize → ∃ e, Excerpt.cut t (some r) maxLength = .ok e) := by
  constructor
  · intro t
    obtain ⟨segs, first, hsegs, hfirst, hsome, hhighlighted, hrange⟩ := exists_first_highlighted (ofQuery q) t
    have hpositions : (ofQuery q).positions t = .ok (positionsFrom 0 segs) := by
      rw [positions, hsegs]
      rfl
    refine ⟨segs, positionsFrom 0 segs, first, hsegs, hpositions, hfirst, ?_, hrange⟩
    tfae_have 1 ↔ 2 := occursIn_ofQuery_iff.symm
    tfae_have 3 ↔ 2 := hsome
    tfae_have 4 ↔ 2 := positions_ne_nil_iff hpositions
    tfae_have 5 ↔ 2 := hhighlighted
    tfae_finish
  · intro before t after hbefore ht maxLength
    obtain ⟨-, first, -, hfirst, hsome, -⟩ := exists_first_highlighted (ofQuery q) t
    obtain ⟨r, rfl⟩ := Option.isSome_iff_exists.1 (hsome.2 ht)
    refine ⟨r, hfirst, ?_, fun hsize => ?_⟩
    · rw [Excerpt.first_append maxLength hbefore ht, Excerpt.around, hfirst]
      rfl
    · obtain ⟨first, hfirst', hpart⟩ := (ofQuery q).exists_firstMatch t
      obtain rfl : some r = first := Except.ok.inj (hfirst.symm.trans hfirst')
      exact Excerpt.exists_cut hsize hpart

end Pattern
end ContentSearch
