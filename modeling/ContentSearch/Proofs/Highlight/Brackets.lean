import ContentSearch.Highlight.Mark
import ContentSearch.Proofs.Highlight.Coverage

/-!
# Brackets

Brackets are put around segments, or around ranges of the characters of a text.  The one writes what it is given; the other
goes through the ranges with a position behind which nothing is written again, so that it has to be shown that it never cuts
the text where it has no characters (`rangesFrom_cons_part`).

* `rangesFrom_positionsFrom`: brackets around the positions of segments are those around the segments, wherever the position
  stands before them;
* `exists_segments_of_rangesFrom`: brackets around any ranges are those around segments of the text, at the ranges as far as
  they lie in the text and after the ranges before them;
* `ranges_positions`: so a highlighted text is written in the same way from its segments and from its positions;
* `ranges_clipped`: and whatever the ranges are, all that is added to the text are brackets, within the ranges.
-/

namespace ContentSearch

open Text (ByteRange)

/-! ## parts of a list -/

theorem itemsBetween_part {α : Type} (s m u : List α) : itemsBetween (s ++ m ++ u) s.length (s ++ m).length = .ok m := by
  have hpart : ((s ++ m ++ u).drop s.length).take ((s ++ m).length - s.length) = m := by
    rw [List.append_assoc, List.drop_left, List.length_append, Nat.add_sub_cancel_left, List.take_left]
  rw [itemsBetween, hpart]
  simp

theorem exists_append_of_le {α : Type} {s u : List α} {n : Nat} (hle : s.length ≤ n) (hn : n ≤ (s ++ u).length) :
    ∃ m v, u = m ++ v ∧ (s ++ m).length = n := by
  refine ⟨u.take (n - s.length), u.drop (n - s.length), (List.take_append_drop ..).symm, ?_⟩
  rw [List.length_append] at hn ⊢
  rw [List.length_take]
  omega

namespace Mark

open Pattern (positionsFrom spansFrom clip Covers)

theorem segments_cons (x : Segment) (segs : List Segment) :
    segments (x :: segs) = (if x.highlighted then bracket x.text else x.text) ++ segments segs := List.flatMap_cons

/-! ## steps -/

theorem rangesFrom_cons_of_le {t : Text} {pos a b : Nat} {l : List (Nat × Nat)}
    (h : min b t.length ≤ min (max a pos) t.length) : rangesFrom t pos ((a, b) :: l) = rangesFrom t pos l := by
  rw [rangesFrom, if_pos h]

/-- What is left of a range is put in brackets: `m` stands before it and `w` is left of it. -/
theorem rangesFrom_cons_part {s m w u v : Text} {a b : Nat} {l : List (Nat × Nat)} (hw : w ≠ [])
    (ha : min (max a s.length) (s ++ m ++ w ++ u).length = (s ++ m).length)
    (hb : min b (s ++ m ++ w ++ u).length = (s ++ m ++ w).length)
    (hrest : rangesFrom (s ++ m ++ w ++ u) (s ++ m ++ w).length l = .ok v) :
    rangesFrom (s ++ m ++ w ++ u) s.length ((a, b) :: l) = .ok (m ++ bracket w ++ v) := by
  have hbefore : itemsBetween (s ++ m ++ w ++ u) s.length (s ++ m).length = .ok m := by
    have h := itemsBetween_part s m (w ++ u)
    rwa [← List.append_assoc] at h
  have hinside := itemsBetween_part (s ++ m) w u
  have hlt : ¬ (s ++ m ++ w).length ≤ (s ++ m).length := by
    have hpos := List.length_pos_iff.2 hw
    have hlength : (s ++ m ++ w).length = (s ++ m).length + w.length := List.length_append
    omega
  rw [rangesFrom, ha, hb, if_neg hlt, hbefore, hinside, hrest]
  rfl

/-! ## the positions of segments -/

/-- **Brackets around the positions of segments are brackets around the segments.**  The position stands behind `s`, and `m` are
the segments that have been passed over since the last brackets.  The induction is on the segments that are left. -/
theorem rangesFrom_positionsFrom {s m : Text} {segs : List Segment} (hne : ∀ x ∈ segs, x.highlighted = true → x.text ≠ []) :
    rangesFrom (s ++ m ++ segs.flatMap Segment.text) s.length (positionsFrom (s ++ m).length segs) =
      .ok (m ++ segments segs) := by
  induction segs generalizing s m with
  | nil =>
    have h := itemsBetween_part s m []
    rw [List.append_nil] at h
    rw [positionsFrom, rangesFrom, List.flatMap_nil, List.append_nil, h]
    exact congrArg Except.ok (List.append_nil m).symm
  | cons x segs ih =>
    obtain ⟨hx, hne⟩ := List.forall_mem_cons.1 hne
    have htext : s ++ m ++ (x :: segs).flatMap Segment.text = s ++ m ++ x.text ++ segs.flatMap Segment.text := by
      rw [List.flatMap_cons, ← List.append_assoc]
    have hstop : (s ++ m).length + x.text.length = (s ++ m ++ x.text).length := List.length_append.symm
    rw [htext, Pattern.positionsFrom_cons, segments_cons, hstop]
    cases hhighlighted : x.highlighted with
    | false =>
      have hrest := ih (s := s) (m := m ++ x.text) hne
      rw [← List.append_assoc] at hrest
      rw [if_neg Bool.false_ne_true, if_neg Bool.false_ne_true, List.nil_append, hrest, List.append_assoc]
    | true =>
      have hrest := ih (s := s ++ m ++ x.text) (m := []) hne
      rw [List.append_nil, List.nil_append] at hrest
      rw [if_pos rfl, if_pos rfl, List.singleton_append, ← List.append_assoc]
      refine rangesFrom_cons_part (hx hhighlighted) ?_ ?_ hrest
      · simp only [List.length_append]
        omega
      · simp only [List.length_append]
        omega

/-! ## any ranges -/

/-- What a range has of the characters of a text. -/
def within (t : Text) (r : Nat × Nat) : ByteRange := ⟨min r.1 t.length, min r.2 t.length⟩

/-- **Brackets around ranges are brackets around segments** of the text, which stand where the ranges are left when they are
clipped to the text and to what comes after the ranges before them.  The induction is on the ranges, of which some are behind
`s`. -/
theorem exists_segments_of_rangesFrom (l : List (Nat × Nat)) (s u : Text) :
    ∃ segs, rangesFrom (s ++ u) s.length l = .ok (segments segs) ∧ segs.flatMap Segment.text = u ∧
      spansFrom List.length s.length segs = (clip s.length (l.map (within (s ++ u)))).map fun r => (r.start, r.stop) := by
  induction l generalizing s u with
  | nil =>
    have h := itemsBetween_part s u []
    rw [List.append_nil] at h
    refine ⟨[⟨u, false⟩], ?_, by simp, rfl⟩
    rw [rangesFrom, h]
    simp [segments]
  | cons r l ih =>
    obtain ⟨a, b⟩ := r
    have hs : s.length ≤ (s ++ u).length := by simp
    have hclip : max (min a (s ++ u).length) s.length = min (max a s.length) (s ++ u).length := by omega
    rw [List.map_cons, clip]
    simp only [within, hclip]
    by_cases hle : min b (s ++ u).length ≤ min (max a s.length) (s ++ u).length
    · rw [if_pos hle, rangesFrom_cons_of_le hle]
      exact ih s u
    · -- the text is cut twice: `m` stands before what is left of the range, and that is `w`
      rw [if_neg hle]
      have hbounds : s.length ≤ min (max a s.length) (s ++ u).length ∧
          min (max a s.length) (s ++ u).length ≤ (s ++ u).length ∧ min b (s ++ u).length ≤ (s ++ u).length := by omega
      generalize hstart : min (max a s.length) (s ++ u).length = start at hle hbounds ⊢
      generalize hstop : min b (s ++ u).length = stop at hle hbounds ⊢
      obtain ⟨hle₁, hle₂, hle₃⟩ := hbounds
      obtain ⟨m, v, rfl, rfl⟩ := exists_append_of_le hle₁ hle₂
      rw [← List.append_assoc] at hstart hstop hle₃ ⊢
      obtain ⟨w, v, rfl, rfl⟩ := exists_append_of_le (by omega) hle₃
      rw [← List.append_assoc] at hstart hstop ⊢
      obtain ⟨segs, hsegs, htext, hspans⟩ := ih (s ++ m ++ w) v
      have hne : w ≠ [] := by
        rintro rfl
        simp at hle
      refine ⟨⟨m, false⟩ :: ⟨w, true⟩ :: segs, ?_, ?_, ?_⟩
      · rw [rangesFrom_cons_part hne hstart hstop hsegs, segments_cons, segments_cons]
        simp
      · simp [htext]
      · rw [List.map_cons, ← hspans]
        simp [spansFrom, Nat.add_assoc]

/-- What is left of a range lies in it, and is not empty. -/
theorem exists_of_mem_clip {last : Nat} {l : List ByteRange} {r : ByteRange} (h : r ∈ clip last l) :
    r.start < r.stop ∧ ∃ r' ∈ l, r'.start ≤ r.start ∧ r.stop = r'.stop := by
  induction l generalizing last with
  | nil => simp [clip] at h
  | cons r₀ l ih =>
    rw [clip] at h
    split at h
    · obtain ⟨hlt, r', hr', hin⟩ := ih h
      exact ⟨hlt, r', List.mem_cons_of_mem _ hr', hin⟩
    · next hlt =>
      rcases List.mem_cons.1 h with rfl | h
      · exact ⟨Nat.lt_of_not_le hlt, r₀, List.mem_cons_self, Nat.le_max_left .., rfl⟩
      · obtain ⟨hlt, r', hr', hin⟩ := ih h
        exact ⟨hlt, r', List.mem_cons_of_mem _ hr', hin⟩

theorem covers_within_iff {t : Text} {l : List (Nat × Nat)} {i : Nat} :
    Covers (l.map (within t)) i ↔ i < t.length ∧ ∃ r ∈ l, r.1 ≤ i ∧ i < r.2 := by
  simp only [Covers, List.mem_map, exists_exists_and_eq_and, within]
  constructor
  · rintro ⟨r, hr, hstart, hstop⟩
    exact ⟨by omega, r, hr, by omega, by omega⟩
  · rintro ⟨hi, r, hr, hstart, hstop⟩
    exact ⟨r, hr, by omega, by omega⟩

/-! ## results -/

/-- **Segments and positions are written alike.**  For every pattern and every text, brackets around the positions of the
matches are brackets around the highlighted segments. -/
theorem ranges_positions (p : Pattern) (t : Text) :
    ∃ segs l, p.highlight t = .ok segs ∧ p.positions t = .ok l ∧ ranges t l = .ok (segments segs) := by
  obtain ⟨segs, hsegs, htext, hne, -⟩ := p.exists_highlight t
  have hmarked := rangesFrom_positionsFrom (s := []) (m := []) fun x hx hhighlighted => hne x hx (.inr hhighlighted)
  rw [htext] at hmarked
  refine ⟨segs, positionsFrom 0 segs, hsegs, ?_, hmarked⟩
  rw [Pattern.positions, hsegs]
  rfl

example : Pattern.positions ⟨["a".toList], true⟩ "baab".toList = .ok [(1, 2), (2, 3)] ∧
    ranges "baab".toList [(1, 2), (2, 3)] = .ok "b[a][a]b".toList := by decide +kernel

/-- **Brackets around any ranges.**  Whatever the ranges, the text is cut into segments, and what is written are the segments
with some of them in brackets. What is in a pair of brackets is not empty and lies in one of the ranges, and no two pairs have
a character in common. If the ranges are in the order of their beginnings, the characters in brackets are all characters of the
text that lie in some range. -/
theorem ranges_clipped (t : Text) (l : List (Nat × Nat)) :
    ∃ segs, ranges t l = .ok (segments segs) ∧ segs.flatMap Segment.text = t ∧
      (∀ r ∈ positionsFrom 0 segs, r.1 < r.2 ∧ r.2 ≤ t.length ∧ ∃ r' ∈ l, r'.1 ≤ r.1 ∧ r.2 ≤ r'.2) ∧
      (positionsFrom 0 segs).Pairwise (fun r r' => r.2 ≤ r'.1) ∧
      (l.Pairwise (fun r r' => r.1 ≤ r'.1) → ∀ i, (∃ r ∈ positionsFrom 0 segs, r.1 ≤ i ∧ i < r.2) ↔
        i < t.length ∧ ∃ r ∈ l, r.1 ≤ i ∧ i < r.2) := by
  obtain ⟨segs, hmarked, htext, hspans⟩ := exists_segments_of_rangesFrom l [] t
  rw [List.length_nil, List.nil_append, ← Pattern.positionsFrom_eq_spansFrom] at hspans
  refine ⟨segs, hmarked, htext, ?_, Pattern.pairwise_positionsFrom 0 segs, ?_⟩
  · intro r hr
    rw [hspans] at hr
    obtain ⟨c, hc, rfl⟩ := List.mem_map.1 hr
    obtain ⟨hlt, c', hc', hstart, hstop⟩ := exists_of_mem_clip hc
    obtain ⟨r', hr', rfl⟩ := List.mem_map.1 hc'
    simp only [within] at hstart hstop
    exact ⟨hlt, by omega, r', hr', by omega, by omega⟩
  · intro hsorted i
    have hsorted' : (l.map (within t)).Pairwise fun r r' => r.start ≤ r'.start := by
      refine List.pairwise_map.2 (hsorted.imp fun {r r'} hle => ?_)
      simp only [within]
      omega
    have hcovers : Covers (clip 0 (l.map (within t))) i ↔ 0 ≤ i ∧ Covers (l.map (within t)) i :=
      Pattern.covers_clip_iff hsorted'
    rw [covers_within_iff] at hcovers
    simp only [hspans, List.mem_map, exists_exists_and_eq_and]
    exact hcovers.trans (and_iff_right (Nat.zero_le i))

example : ranges "abc".toList [(1, 10), (2, 3), (3, 0)] = .ok "a[bc]".toList := by decide

end Mark
end ContentSearch
