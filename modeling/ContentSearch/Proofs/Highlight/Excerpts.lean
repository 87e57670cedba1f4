import ContentSearch.Highlight.Excerpt
import ContentSearch.Proofs.Highlight.Segments

/-!
# Excerpts

The first match of a pattern is a part of the text, and an excerpt around a part is always cut: its window starts early
enough to fit into the text (`exists_windowStart`), so that no sum or difference of offsets leaves the words of the machine as
long as the text itself fits into them.

If the window has room for the part around which it is cut, it starts no later than the part and ends no earlier
(`exists_windowStart_part`), so that the excerpt is that part between what it shows of the text before and of the text after
(`exists_cut_part`).
-/

namespace ContentSearch

/-! ## sizes -/

theorem addSizes_eq_ok {a b : Nat} (h : a + b < wordSize) : addSizes a b = .ok (a + b) := if_pos h

theorem subSizes_eq_ok {a b : Nat} (h : b ≤ a) : subSizes a b = .ok (a - b) := if_pos h

namespace Excerpt

variable {t s m u : Text} {anchor : Option Text.ByteRange} {maxLength : Nat}

/-! ## windows -/

/-- A window of a text, with an ellipsis on each side where the text goes on. -/
def window (t : Text) (start length : Nat) : Text :=
  (if 0 < start then ellipsis else []) ++ (t.drop start).take length ++
    (if start + length < t.length then ellipsis else [])

theorem windowStart_of_le (hm : maxLength ≤ m.length) :
    windowStart (s ++ m ++ u) (s ++ m ++ u).length maxLength
      (some ⟨Text.byteLength s, Text.byteLength s + Text.byteLength m⟩) = .ok s.length := by
  rw [windowStart]
  simp only [Text.slice_before, Text.slice_part, bind, Except.bind, pure, Except.pure, if_pos hm]

/-- A shorter part is put in the middle of the window, as far as the ends of the text allow. -/
theorem windowStart_of_lt (hm : m.length < maxLength) (hlt : maxLength < (s ++ m ++ u).length)
    (hsize : (s ++ m ++ u).length < wordSize) :
    windowStart (s ++ m ++ u) (s ++ m ++ u).length maxLength
        (some ⟨Text.byteLength s, Text.byteLength s + Text.byteLength m⟩) =
      .ok (min (s.length + m.length / 2 - maxLength / 2) ((s ++ m ++ u).length - maxLength)) := by
  have hlength : (s ++ m ++ u).length = s.length + m.length + u.length := by simp [Nat.add_assoc]
  have hsum : addSizes s.length (m.length / 2) = .ok (s.length + m.length / 2) := addSizes_eq_ok (by omega)
  have hdifference := subSizes_eq_ok (Nat.le_of_lt hlt)
  rw [windowStart]
  simp only [Text.slice_before, Text.slice_part, bind, Except.bind, pure, Except.pure, if_neg (Nat.not_le_of_lt hm), hsum,
    hdifference]

theorem exists_windowStart (hlt : maxLength < t.length) (hsize : t.length < wordSize)
    (ha : ∀ r, anchor = some r → Text.IsPart t r) :
    ∃ n, windowStart t t.length maxLength anchor = .ok n ∧ n + maxLength ≤ t.length := by
  cases anchor with
  | none => exact ⟨0, rfl, by omega⟩
  | some r =>
    obtain ⟨s, m, u, rfl, rfl⟩ := ha r rfl
    by_cases hm : maxLength ≤ m.length
    · have hlength : (s ++ m ++ u).length = s.length + m.length + u.length := by simp [Nat.add_assoc]
      exact ⟨_, windowStart_of_le hm, by omega⟩
    · exact ⟨_, windowStart_of_lt (Nat.lt_of_not_le hm) hlt hsize, by omega⟩

theorem cut_eq_window (hpos : 0 < maxLength) (hlt : maxLength < t.length) (hsize : t.length < wordSize) {n : Nat}
    (hn : windowStart t t.length maxLength anchor = .ok n) (hfit : n + maxLength ≤ t.length) :
    cut t anchor maxLength = .ok (window t n maxLength) := by
  have hsum : addSizes n maxLength = .ok (n + maxLength) := addSizes_eq_ok (by omega)
  have hdifference : subSizes (n + maxLength) n = .ok maxLength := by
    rw [subSizes_eq_ok (Nat.le_add_right ..), Nat.add_sub_cancel_left]
  rw [cut, if_neg (Nat.ne_of_gt hpos)]
  simp only [if_neg (Nat.not_le_of_lt hlt), hn, hsum, Nat.min_eq_left hfit, hdifference, bind, Except.bind, pure, Except.pure,
    window]

theorem cut_of_le (hpos : 0 < maxLength) (hle : t.length ≤ maxLength) : cut t anchor maxLength = .ok t := by
  rw [cut, if_neg (Nat.ne_of_gt hpos)]
  simp only [if_pos hle]
  rfl

theorem exists_cut (hsize : t.length < wordSize) (ha : ∀ r, anchor = some r → Text.IsPart t r) :
    ∃ e, cut t anchor maxLength = .ok e := by
  rcases Nat.eq_zero_or_pos maxLength with rfl | hpos
  · exact ⟨[], rfl⟩
  by_cases hle : t.length ≤ maxLength
  · exact ⟨t, cut_of_le hpos hle⟩
  have hlt := Nat.lt_of_not_le hle
  obtain ⟨n, hn, hfit⟩ := exists_windowStart hlt hsize ha
  exact ⟨_, cut_eq_window hpos hlt hsize hn hfit⟩

theorem exists_around (p : Pattern) (hsize : t.length < wordSize) (maxLength : Nat) :
    ∃ e, around p t maxLength = .ok e := by
  obtain ⟨a, ha, hpart⟩ := p.exists_firstMatch t
  rw [around, ha]
  exact exists_cut hsize hpart

/-! ## parts that are shown whole -/

/-- What an excerpt shows of the text before a part: its end, after an ellipsis if that is not all of it. -/
def IsFront (s front : Text) : Prop := ∃ n ≤ s.length, front = (if 0 < n then ellipsis else []) ++ s.drop n

/-- What an excerpt shows of the text after a part: its beginning, before an ellipsis if that is not all of it. -/
def IsBack (u back : Text) : Prop := ∃ n ≤ u.length, back = u.take n ++ (if n < u.length then ellipsis else [])

theorem exists_windowStart_part (hm : m.length ≤ maxLength) (hlt : maxLength < (s ++ m ++ u).length)
    (hsize : (s ++ m ++ u).length < wordSize) :
    ∃ n, windowStart (s ++ m ++ u) (s ++ m ++ u).length maxLength
        (some ⟨Text.byteLength s, Text.byteLength s + Text.byteLength m⟩) = .ok n ∧
      n ≤ s.length ∧ s.length + m.length ≤ n + maxLength ∧ n + maxLength ≤ (s ++ m ++ u).length := by
  have hlength : (s ++ m ++ u).length = s.length + m.length + u.length := by simp [Nat.add_assoc]
  rcases Nat.lt_or_eq_of_le hm with hshort | rfl
  · exact ⟨_, windowStart_of_lt hshort hlt hsize, by omega⟩
  · exact ⟨_, windowStart_of_le (Nat.le_refl _), by omega⟩

theorem run_eq_part {n : Nat} (hn : n ≤ s.length) (hstop : s.length + m.length ≤ n + maxLength) :
    ((s ++ m ++ u).drop n).take maxLength = s.drop n ++ m ++ u.take (n + maxLength - (s.length + m.length)) := by
  have hdrop : (s ++ m ++ u).drop n = (s.drop n ++ m) ++ u := by
    rw [List.append_assoc, List.drop_append_of_le_length hn, List.append_assoc]
  have hcount : maxLength = (s.drop n ++ m).length + (n + maxLength - (s.length + m.length)) := by
    rw [List.length_append, List.length_drop]
    omega
  rw [hdrop]
  conv_lhs => rw [hcount]
  rw [List.take_length_add_append]

theorem window_part {n : Nat} (hn : n ≤ s.length) (hstop : s.length + m.length ≤ n + maxLength)
    (hfit : n + maxLength ≤ (s ++ m ++ u).length) :
    ∃ front back, window (s ++ m ++ u) n maxLength = front ++ m ++ back ∧ IsFront s front ∧ IsBack u back := by
  have hlength : (s ++ m ++ u).length = s.length + m.length + u.length := by simp [Nat.add_assoc]
  have hmore : n + maxLength < (s ++ m ++ u).length ↔ n + maxLength - (s.length + m.length) < u.length := by omega
  refine ⟨_, _, ?_, ⟨n, hn, rfl⟩, ⟨n + maxLength - (s.length + m.length), by omega, rfl⟩⟩
  rw [window, run_eq_part hn hstop]
  simp only [hmore]
  simp only [List.append_assoc]

/-- **An excerpt around a part of a text** that is not too long for it shows the whole part. -/
theorem exists_cut_part (hne : m ≠ []) (hm : m.length ≤ maxLength) (hsize : (s ++ m ++ u).length < wordSize) :
    ∃ front back, cut (s ++ m ++ u) (some ⟨Text.byteLength s, Text.byteLength s + Text.byteLength m⟩) maxLength =
        .ok (front ++ m ++ back) ∧ IsFront s front ∧ IsBack u back := by
  have hpos : 0 < maxLength := Nat.lt_of_lt_of_le (List.length_pos_iff.2 hne) hm
  by_cases hle : (s ++ m ++ u).length ≤ maxLength
  · exact ⟨s, u, cut_of_le hpos hle, ⟨0, Nat.zero_le _, rfl⟩, ⟨u.length, Nat.le_refl _, by simp⟩⟩
  · have hlt := Nat.lt_of_not_le hle
    obtain ⟨n, hn, hstart, hstop, hfit⟩ := exists_windowStart_part hm hlt hsize
    obtain ⟨front, back, hwindow, hfront, hback⟩ := window_part hstart hstop hfit
    exact ⟨front, back, by rw [cut_eq_window hpos hlt hsize hn hfit, hwindow], hfront, hback⟩

end Excerpt
end ContentSearch
