import ContentSearch.Highlight.Segment
import ContentSearch.Proofs.Collections
import ContentSearch.Proofs.Highlight.Origins

/-!
# The segments of a highlighted text

A match is a part of the lowercase copy that is not empty (`exists_of_mem_matchesFrom`), so that it comes from a part of
the text cut between characters; clipping keeps the cuts and makes them ascend (`apart_clip`).

* `exists_origins`, `exists_ranges`: the matches of a text are the clipped origins of those in its copy, and none of them is
  out of place;
* `exists_firstMatch`: the first match of a text, if there is one, is a part of it;
* `exists_segmentsFrom`: the text from a cut on is the segments from there on, and the matches are the highlighted ones;
* `mem_spansFrom_iff`: the ranges of the highlighted segments, in bytes or in characters, follow on the segments before them;
* `mem_positionsFrom_iff`, `pairwise_positionsFrom`: so do the character ranges of the segments that match;
* `highlight_partitions`: a text is the sequence of its segments, and `positions` are the ranges of the highlighted ones.
-/

namespace ContentSearch.Pattern

open Text (ByteRange IsBoundary byteLength)

/-! ## matches -/

/-- A match is a part of the text that is not empty. -/
theorem exists_of_mem_matchesFrom {p : Pattern} {offset : Nat} {t : Text} {r : ByteRange}
    (h : r ∈ p.matchesFrom offset t) :
    ∃ s m u, t = s ++ m ++ u ∧ m ≠ [] ∧
      r = ⟨offset + byteLength s, offset + byteLength s + byteLength m⟩ := by
  fun_induction matchesFrom p offset t with
  | case1 => simp at h
  | case2 offset c t _ ih =>
    obtain ⟨s, m, u, rfl, hm, rfl⟩ := ih h
    exact ⟨c :: s, m, u, rfl, hm, by simp [Nat.add_assoc]⟩
  | case3 offset c t n _ stop ih =>
    have hsplit : t = t.take (n - 1) ++ t.drop (n - 1) := (List.take_append_drop ..).symm
    rcases List.mem_cons.1 h with rfl | h
    · refine ⟨[], c :: t.take (n - 1), t.drop (n - 1), ?_, by simp, rfl⟩
      rw [List.nil_append, List.cons_append, ← hsplit]
    · obtain ⟨s, m, u, hu, hm, rfl⟩ := ih h
      refine ⟨c :: t.take (n - 1) ++ s, m, u, ?_, hm, ?_⟩
      · rw [List.append_assoc, List.append_assoc, ← List.append_assoc s, ← hu, List.cons_append, ← hsplit]
      · simp only [stop, Text.byteLength_append, Nat.add_assoc]

/-! ## clipping -/

/-- Ranges of bytes of a text from `last` on: in order, apart from each other, none of them empty, and cut between
characters. -/
def Apart (t : Text) (last : Nat) : List ByteRange → Prop
  | [] => True
  | r :: l => last ≤ r.start ∧ r.start < r.stop ∧ IsBoundary t r.start ∧ IsBoundary t r.stop ∧ Apart t r.stop l

theorem apart_clip {t : Text} {l : List ByteRange} (h : ∀ r ∈ l, IsBoundary t r.start ∧ IsBoundary t r.stop)
    {last : Nat} (hlast : IsBoundary t last) : Apart t last (clip last l) := by
  induction l generalizing last with
  | nil => exact trivial
  | cons r l ih =>
    obtain ⟨hstart, hstop⟩ := h r (by simp)
    have hl : ∀ r' ∈ l, IsBoundary t r'.start ∧ IsBoundary t r'.stop := fun r' hr' => h r' (List.mem_cons_of_mem _ hr')
    have hmax : IsBoundary t (max r.start last) := by
      rcases Nat.le_total r.start last with hle | hle
      · rwa [Nat.max_eq_right hle]
      · rwa [Nat.max_eq_left hle]
    rw [clip]
    split
    · exact ih hl hlast
    · next hlt => exact ⟨Nat.le_max_right .., Nat.lt_of_not_le hlt, hmax, hstop, ih hl hstop⟩

theorem exists_origin_of_mem {p : Pattern} {t : Text} {r : ByteRange} (hr : r ∈ p.foldedMatches (Folded.ofText t)) :
    ∃ o, (Folded.ofText t).originRange r = .ok o ∧ Folded.IsOrigin t r o := by
  obtain ⟨s, m, u, ht, hm, rfl⟩ := exists_of_mem_matchesFrom hr
  rw [Folded.lower_ofText] at ht
  rw [Nat.zero_add]
  exact Folded.exists_isOrigin ht hm

theorem exists_origins (p : Pattern) (t : Text) :
    ∃ l, List.Forall₂ (Folded.IsOrigin t) (p.foldedMatches (Folded.ofText t)) l ∧ p.ranges t = .ok (clip 0 l) := by
  obtain ⟨l, hl, hall⟩ := exists_mapM_eq_ok fun r hr => exists_origin_of_mem (p := p) (t := t) hr
  refine ⟨l, hall, ?_⟩
  show (do return clip 0 (← (p.foldedMatches (Folded.ofText t)).mapM (Folded.ofText t).originRange)) = _
  rw [hl]
  rfl

theorem exists_ranges (p : Pattern) (t : Text) : ∃ l, p.ranges t = .ok l ∧ Apart t 0 l := by
  obtain ⟨l, hall, hl⟩ := exists_origins p t
  refine ⟨clip 0 l, hl, apart_clip (fun o ho => ?_) (Text.isBoundary_zero t)⟩
  obtain ⟨r, -, horigin⟩ := exists_of_mem_right hall ho
  exact ⟨horigin.start_boundary, horigin.stop_boundary⟩

theorem exists_firstMatch_origin {p : Pattern} {t : Text} {r : ByteRange} {l : List ByteRange}
    (h : p.foldedMatches (Folded.ofText t) = r :: l) : ∃ o, Folded.IsOrigin t r o ∧ p.firstMatch t = .ok (some o) := by
  obtain ⟨o, ho, horigin⟩ := exists_origin_of_mem (h ▸ List.mem_cons_self)
  refine ⟨o, horigin, ?_⟩
  unfold firstMatch
  simp only [h, ho]
  rfl

theorem firstMatch_of_eq_nil {p : Pattern} {t : Text} (h : p.foldedMatches (Folded.ofText t) = []) :
    p.firstMatch t = .ok none := by
  unfold firstMatch
  simp only [h]

theorem exists_firstMatch (p : Pattern) (t : Text) :
    ∃ a, p.firstMatch t = .ok a ∧ ∀ r, a = some r → Text.IsPart t r := by
  cases h : p.foldedMatches (Folded.ofText t) with
  | nil => exact ⟨none, firstMatch_of_eq_nil h, by simp⟩
  | cons r l =>
    obtain ⟨o, horigin, hfirst⟩ := exists_firstMatch_origin h
    refine ⟨some o, hfirst, fun r hr => ?_⟩
    obtain ⟨before, w, after, ht, -, ho⟩ := horigin.exists_part
    exact ⟨before, w, after, ht, (Option.some.inj hr).symm.trans ho⟩

/-! ## segments -/

/-- Of two neighbours at least one is highlighted. -/
def Alternating (segs : List Segment) : Prop := segs.IsChain fun a b => a.highlighted = true ∨ b.highlighted = true

theorem alternating_cons {a : Segment} {segs : List Segment} (ha : a.highlighted = true) (h : Alternating segs) :
    Alternating (a :: segs) := by
  cases segs with
  | nil => exact .singleton a
  | cons b segs => exact .cons_cons (.inl ha) h

/-- The text before a match as segments: none if there is no such text. -/
def plain (m : Text) : List Segment := if m = [] then [] else [⟨m, false⟩]

theorem flatMap_plain (m : Text) : (plain m).flatMap Segment.text = m := by
  unfold plain
  split <;> simp [*]

theorem text_ne_nil_of_mem_plain {m : Text} {x : Segment} (h : x ∈ plain m) : x.text ≠ [] := by
  unfold plain at h
  split at h
  · simp at h
  · simp_all

theorem alternating_plain_append {m : Text} {a : Segment} {segs : List Segment} (ha : a.highlighted = true)
    (h : Alternating segs) : Alternating (plain m ++ a :: segs) := by
  unfold plain
  split
  · exact alternating_cons ha h
  · exact List.isChain_cons_cons.2 ⟨.inr ha, alternating_cons ha h⟩

/-- The ranges of the highlighted segments of a list that starts at an offset, counted in characters, bytes or other units. -/
def spansFrom (size : Text → Nat) (offset : Nat) : List Segment → List (Nat × Nat)
  | [] => []
  | x :: segs =>
    (if x.highlighted then [(offset, offset + size x.text)] else []) ++ spansFrom size (offset + size x.text) segs

/-- A span starts after the segments before its own. -/
theorem mem_spansFrom_iff {size : Text → Nat} (hnil : size [] = 0) (happend : ∀ s u, size (s ++ u) = size s + size u)
    {offset : Nat} {segs : List Segment} {a b : Nat} :
    (a, b) ∈ spansFrom size offset segs ↔ ∃ pre x post, segs = pre ++ x :: post ∧ x.highlighted = true ∧
      a = offset + size (pre.flatMap Segment.text) ∧ b = a + size x.text := by
  induction segs generalizing offset with
  | nil => simp [spansFrom]
  | cons y segs ih =>
    have hcons (pre : List Segment) :
        size ((y :: pre).flatMap Segment.text) = size y.text + size (pre.flatMap Segment.text) := by
      rw [List.flatMap_cons, happend]
    rw [spansFrom, List.mem_append, ih]
    constructor
    · rintro (h | ⟨pre, x, post, rfl, hx, rfl, rfl⟩)
      · cases hy : y.highlighted with
        | false => simp [hy] at h
        | true =>
          obtain ⟨rfl, rfl⟩ : a = offset ∧ b = offset + size y.text := by simpa [hy] using h
          exact ⟨[], y, segs, rfl, hy, by simp [hnil], rfl⟩
      · exact ⟨y :: pre, x, post, rfl, hx, by rw [hcons, Nat.add_assoc], rfl⟩
    · rintro ⟨pre, x, post, h, hx, rfl, rfl⟩
      rcases List.cons_eq_append_iff.1 h with ⟨rfl, h⟩ | ⟨pre', rfl, h⟩
      · obtain ⟨rfl, rfl⟩ := List.cons.inj h
        left
        simp [hx, hnil]
      · right
        exact ⟨pre', x, post, (List.cons.inj h).2, hx, by rw [hcons, Nat.add_assoc], rfl⟩

theorem spansFrom_plain_append (m : Text) (offset : Nat) (segs : List Segment) :
    spansFrom byteLength offset (plain m ++ segs) = spansFrom byteLength (offset + byteLength m) segs := by
  unfold plain
  split
  · next hm => rw [hm, List.nil_append, Text.byteLength_nil, Nat.add_zero]
  · rfl

/-- One step: before a match the segment of the text up to it, unless that is empty. -/
theorem segmentsFrom_cons {t m m' : Text} {last : Nat} {r : ByteRange} {l : List ByteRange} {segs : List Segment}
    (hm : last + byteLength m = r.start) (hplain : Text.slice t ⟨last, r.start⟩ = .ok m)
    (hfound : Text.slice t r = .ok m') (hrest : segmentsFrom t r.stop l = .ok segs) :
    segmentsFrom t last (r :: l) = .ok (plain m ++ ⟨m', true⟩ :: segs) := by
  rw [segmentsFrom, hfound, hrest, hplain]
  by_cases hnil : m = []
  · have hlast : ¬ last < r.start := by
      rw [hnil, Text.byteLength_nil] at hm
      omega
    rw [if_neg hlast, plain, if_pos hnil]
    rfl
  · have hlast : last < r.start := by
      have hpos := Text.byteLength_pos hnil
      omega
    rw [if_pos hlast, plain, if_neg hnil]
    rfl

/-- The rest `u` of a text after `s` is its segments from there on, and those that are highlighted are the matches. -/
theorem exists_segmentsFrom {l : List ByteRange} {s u : Text} (h : Apart (s ++ u) (byteLength s) l) :
    ∃ segs, segmentsFrom (s ++ u) (byteLength s) l = .ok segs ∧ segs.flatMap Segment.text = u ∧
      (∀ x ∈ segs, x.text ≠ []) ∧ Alternating segs ∧
      spansFrom byteLength (byteLength s) segs = l.map fun r => (r.start, r.stop) := by
  induction l generalizing s u with
  | nil =>
    rw [segmentsFrom, Text.byteLength_append]
    by_cases hu : u = []
    · rw [if_neg (by simp [hu])]
      exact ⟨[], rfl, by simp [hu], by simp, .nil, rfl⟩
    · have hpos := Text.byteLength_pos hu
      have hslice : Text.slice (s ++ u) ⟨byteLength s, byteLength s + byteLength u⟩ = .ok u := by
        have := Text.slice?_append s u []
        rw [List.append_nil] at this
        rw [Text.slice, this]
      rw [if_pos (by omega), hslice]
      exact ⟨[⟨u, false⟩], rfl, by simp, by simpa using hu, .singleton _, rfl⟩
  | cons r l ih =>
    obtain ⟨hle, hlt, hstart, hstop, hrest⟩ := h
    -- the text is cut twice: `m` stands before the match and `m'` is the match
    obtain ⟨m, v, rfl, hm, hplain⟩ := Text.exists_slice_append hstart hle
    have hassoc : s ++ (m ++ v) = s ++ m ++ v := (List.append_assoc ..).symm
    rw [hassoc] at hstop hrest hplain ⊢
    obtain ⟨m', w, rfl, hm', hfound⟩ := Text.exists_slice_append hstop (by rw [hm]; exact Nat.le_of_lt hlt)
    rw [hm] at hfound
    have hassoc' : s ++ m ++ (m' ++ w) = s ++ m ++ m' ++ w := (List.append_assoc ..).symm
    rw [hassoc'] at hrest hplain hfound ⊢
    rw [← hm'] at hrest
    obtain ⟨segs, hsegs, htext, hne, halt, hspans⟩ := ih hrest
    have hstop' : r.start + byteLength m' = r.stop := by rw [← hm', Text.byteLength_append, hm]
    rw [hm'] at hsegs hspans
    have hm'ne : m' ≠ [] := by
      rintro rfl
      rw [List.append_nil, hm] at hm'
      omega
    refine ⟨plain m ++ ⟨m', true⟩ :: segs, ?_, ?_, ?_, alternating_plain_append rfl halt, ?_⟩
    · exact segmentsFrom_cons (by rw [← hm, Text.byteLength_append]) hplain hfound hsegs
    · rw [List.flatMap_append, List.flatMap_cons, flatMap_plain, htext]
    · intro x hx
      rcases List.mem_append.1 hx with hx | hx
      · exact text_ne_nil_of_mem_plain hx
      · rcases List.mem_cons.1 hx with rfl | hx
        · exact hm'ne
        · exact hne x hx
    · rw [spansFrom_plain_append, spansFrom, ← Text.byteLength_append, hm]
      dsimp only
      rw [hstop', hspans]
      rfl

theorem matchesFrom_of_isEmpty {p : Pattern} (hp : p.isEmpty = true) (offset : Nat) (t : Text) :
    p.matchesFrom offset t = [] := by
  have htried : p.tried = [] := List.isEmpty_iff.1 hp
  fun_induction matchesFrom p offset t with
  | case1 => rfl
  | case2 offset c t _ ih => exact ih
  | case3 offset c t n hn => simp [matchLength?, htried] at hn

theorem isEmpty_of_not_accepted {p : Pattern} (hp : p.accepted = false) : p.isEmpty = true := by
  rw [isEmpty, tried, hp]
  rfl

theorem positions_of_isEmpty {p : Pattern} (hp : p.isEmpty = true) (t : Text) : p.positions t = .ok [] := by
  rw [positions, highlight, if_pos hp]
  rfl

theorem ranges_of_isEmpty {p : Pattern} (hp : p.isEmpty = true) (t : Text) : p.ranges t = .ok [] := by
  unfold ranges foldedMatches
  simp only [matchesFrom_of_isEmpty hp]
  rfl

/-- **The segments of a text** are the text in parts, of two neighbours one is highlighted, and those that are highlighted are
the matches. -/
theorem exists_highlight_ranges (p : Pattern) (t : Text) :
    ∃ segs l, p.highlight t = .ok segs ∧ p.ranges t = .ok l ∧ segs.flatMap Segment.text = t ∧
      (∀ x ∈ segs, t ≠ [] ∨ x.highlighted = true → x.text ≠ []) ∧ Alternating segs ∧
      spansFrom byteLength 0 segs = l.map fun r => (r.start, r.stop) := by
  unfold highlight
  by_cases hp : p.isEmpty = true
  · rw [if_pos hp]
    exact ⟨[⟨t, false⟩], [], rfl, ranges_of_isEmpty hp t, by simp, by simp, .singleton _, rfl⟩
  · obtain ⟨l, hl, hapart⟩ := exists_ranges p t
    obtain ⟨segs, hsegs, htext, hne, halt, hspans⟩ := exists_segmentsFrom (s := []) hapart
    rw [if_neg hp, hl]
    exact ⟨segs, l, hsegs, rfl, htext, fun x hx _ => hne x hx, halt, hspans⟩

theorem exists_highlight (p : Pattern) (t : Text) :
    ∃ segs, p.highlight t = .ok segs ∧ segs.flatMap Segment.text = t ∧
      (∀ x ∈ segs, t ≠ [] ∨ x.highlighted = true → x.text ≠ []) ∧ Alternating segs := by
  obtain ⟨segs, -, hsegs, -, htext, hne, halt, -⟩ := exists_highlight_ranges p t
  exact ⟨segs, hsegs, htext, hne, halt⟩

/-! ## positions -/

def charCount (segs : List Segment) : Nat := (segs.flatMap Segment.text).length

theorem charCount_cons (x : Segment) (segs : List Segment) :
    charCount (x :: segs) = x.text.length + charCount segs := by
  simp [charCount]

theorem charCount_append (segs segs' : List Segment) : charCount (segs ++ segs') = charCount segs + charCount segs' := by
  simp [charCount]

theorem positionsFrom_cons (offset : Nat) (x : Segment) (segs : List Segment) :
    positionsFrom offset (x :: segs) =
      (if x.highlighted then [(offset, offset + x.text.length)] else []) ++
        positionsFrom (offset + x.text.length) segs := by
  rw [positionsFrom]
  split <;> rfl

theorem positionsFrom_eq_spansFrom (offset : Nat) (segs : List Segment) :
    positionsFrom offset segs = spansFrom List.length offset segs := by
  induction segs generalizing offset with
  | nil => rfl
  | cons x segs ih => rw [positionsFrom_cons, ih, spansFrom]

theorem mem_positionsFrom_iff {offset : Nat} {segs : List Segment} {a b : Nat} :
    (a, b) ∈ positionsFrom offset segs ↔ ∃ pre x post, segs = pre ++ x :: post ∧ x.highlighted = true ∧
      a = offset + charCount pre ∧ b = a + x.text.length := by
  rw [positionsFrom_eq_spansFrom]
  exact mem_spansFrom_iff rfl fun _ _ => List.length_append

/-- Positions ascend, and no character is in two of them. -/
theorem pairwise_positionsFrom (offset : Nat) (segs : List Segment) :
    (positionsFrom offset segs).Pairwise fun r r' => r.2 ≤ r'.1 := by
  induction segs generalizing offset with
  | nil => exact .nil
  | cons x segs ih =>
    rw [positionsFrom_cons, List.pairwise_append]
    refine ⟨by split <;> simp, ih _, ?_⟩
    rintro r hr ⟨a, b⟩ hab
    obtain ⟨pre, y, post, -, -, rfl, -⟩ := mem_positionsFrom_iff.1 hab
    split at hr
    · rw [List.mem_singleton.1 hr]
      exact Nat.le_add_right ..
    · simp at hr

/-- **Highlighting partitions the text.**  Whatever is sought, the segments of a text are the text in order, cut into parts
of which none is empty and of two neighbours one is highlighted; the positions are the ranges of characters of the
highlighted segments, in ascending order, none of them empty and no two with a character in common. -/
theorem highlight_partitions (p : Pattern) (t : Text) :
    ∃ segs, p.highlight t = .ok segs ∧
      segs.flatMap Segment.text = t ∧
      (t ≠ [] → ∀ x ∈ segs, x.text ≠ []) ∧
      segs.IsChain (fun a b => a.highlighted = true ∨ b.highlighted = true) ∧
      ∃ l, p.positions t = .ok l ∧
        (∀ a b, (a, b) ∈ l ↔ ∃ pre x post, segs = pre ++ x :: post ∧ x.highlighted = true ∧
          a = (pre.flatMap Segment.text).length ∧ b = a + x.text.length) ∧
        (∀ r ∈ l, r.1 < r.2 ∧ r.2 ≤ t.length) ∧
        l.Pairwise fun r r' => r.2 ≤ r'.1 := by
  obtain ⟨segs, hsegs, htext, hne, halt⟩ := exists_highlight p t
  refine ⟨segs, hsegs, htext, fun ht x hx => hne x hx (.inl ht), halt, positionsFrom 0 segs, ?_, ?_, ?_,
    pairwise_positionsFrom 0 segs⟩
  · rw [positions, hsegs]
    rfl
  · intro a b
    rw [mem_positionsFrom_iff]
    simp only [Nat.zero_add, charCount]
  · rintro ⟨a, b⟩ hab
    obtain ⟨pre, x, post, rfl, hx, rfl, rfl⟩ := mem_positionsFrom_iff.1 hab
    have hpos : 0 < x.text.length := List.length_pos_iff.2 (hne x (by simp) (.inr hx))
    have hcount : t.length = charCount pre + (x.text.length + charCount post) := by
      rw [← charCount_cons, ← charCount_append, charCount, htext]
    exact ⟨by show _ < _ + _; omega, by show _ + _ ≤ _; omega⟩

end ContentSearch.Pattern
