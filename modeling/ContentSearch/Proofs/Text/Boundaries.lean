import ContentSearch.Fault

/-!
# Byte offsets between two characters

`IsBoundary` is said of a text and a byte offset, `IsPart` of a text and a range of bytes; a text has a part between any two
boundaries (`isPart_of_boundaries`), because of two beginnings of a text the one with fewer bytes is the shorter one
(`exists_prefix_of_le`), and a part within the bytes of another one is a part of it (`infix_of_le`).
-/

namespace ContentSearch

namespace Text

/-- Whether a byte offset of a text lies between two characters, or at one of its ends. -/
def IsBoundary (t : Text) (n : Nat) : Prop := ∃ s u, t = s ++ u ∧ byteLength s = n

theorem isBoundary_zero (t : Text) : IsBoundary t 0 := ⟨[], t, rfl, rfl⟩

theorem byteLength_eq_zero {t : Text} : byteLength t = 0 ↔ t = [] := by
  cases t with
  | nil => simp
  | cons c t =>
    have hc := Char.utf8Size_pos c
    simp only [byteLength_cons, reduceCtorEq, iff_false]
    omega

theorem byteLength_pos {t : Text} (h : t ≠ []) : 0 < byteLength t :=
  Nat.pos_of_ne_zero fun h0 => h (byteLength_eq_zero.1 h0)

theorem exists_prefix_of_le {s s' u u' : Text} (h : s ++ u = s' ++ u') (hle : byteLength s ≤ byteLength s') :
    ∃ m, s' = s ++ m ∧ u = m ++ u' := by
  rcases List.append_eq_append_iff.1 h with ⟨m, h1, h2⟩ | ⟨m, h1, h2⟩
  · exact ⟨m, h1, h2⟩
  · have hm : m = [] := by
      rw [h1, byteLength_append] at hle
      exact byteLength_eq_zero.1 (by omega)
    subst hm
    exact ⟨[], by simpa using h1.symm, by simpa using h2.symm⟩

theorem infix_of_le {s m u before w after : Text} (h : s ++ m ++ u = before ++ w ++ after)
    (hstart : byteLength before ≤ byteLength s) (hstop : byteLength s + byteLength m ≤ byteLength before + byteLength w) :
    m <:+: w := by
  rw [List.append_assoc, List.append_assoc] at h
  obtain ⟨k, rfl, hk⟩ := exists_prefix_of_le h.symm hstart
  rw [byteLength_append] at hstop
  rw [← List.append_assoc] at hk
  obtain ⟨j, hj, -⟩ := exists_prefix_of_le hk.symm (by rw [byteLength_append]; omega)
  exact ⟨k, j, hj.symm⟩

theorem exists_slice_append {s u : Text} {b : Nat} (hb : IsBoundary (s ++ u) b) (h : byteLength s ≤ b) :
    ∃ m v, u = m ++ v ∧ byteLength (s ++ m) = b ∧ slice (s ++ u) ⟨byteLength s, b⟩ = .ok m := by
  obtain ⟨s', v, hs, rfl⟩ := hb
  obtain ⟨m, rfl, rfl⟩ := exists_prefix_of_le hs h
  refine ⟨m, v, rfl, rfl, ?_⟩
  rw [slice, ← List.append_assoc, byteLength_append, slice?_append]

/-! ## parts -/

/-- Whether a range of bytes is a part of a text, cut between characters. -/
def IsPart (t : Text) (r : ByteRange) : Prop :=
  ∃ s m u, t = s ++ m ++ u ∧ r = ⟨byteLength s, byteLength s + byteLength m⟩

theorem isPart_of_boundaries {t : Text} {a b : Nat} (ha : IsBoundary t a) (hb : IsBoundary t b) (h : a ≤ b) :
    IsPart t ⟨a, b⟩ := by
  obtain ⟨s, u, rfl, rfl⟩ := ha
  obtain ⟨m, v, rfl, rfl, -⟩ := exists_slice_append hb h
  exact ⟨s, m, v, (List.append_assoc ..).symm, by rw [byteLength_append]⟩

theorem slice_part (s m u : Text) : slice (s ++ m ++ u) ⟨byteLength s, byteLength s + byteLength m⟩ = .ok m := by
  rw [slice, slice?_append]

theorem slice_before (s m u : Text) : slice (s ++ m ++ u) ⟨0, byteLength s⟩ = .ok s := by
  simpa using slice_part [] s (m ++ u)

end Text
end ContentSearch
