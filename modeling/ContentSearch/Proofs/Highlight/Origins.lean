import ContentSearch.Highlight.Folded
import ContentSearch.Proofs.Text.Boundaries
import ContentSearch.Proofs.Text.Lowercase
import Mathlib.Data.List.Basic

/-!
# Where the bytes of a lowercase copy come from

The lowercase copy of every text is made character by character (`lower_ofText`).  `IsOrigin` says which characters of the
text a range of its copy comes from: those whose lowercase forms meet the range.

* `exists_origin`: every byte of a copy comes from a character;
* `lowerEach_mono`: the forms of the characters lie in the copy in the order of the characters;
* `IsOrigin.start_le`, `IsOrigin.stop_le`: so ranges of the copy in order come from ranges of the text in order;
* `exists_isOrigin_of_lt`: a range of the copy that is not empty has an origin, which is looked up in a table (`general`);
* `originRange_ofText`: in the copy of a text of single-byte characters all bytes stay in place, so that it needs no table;
* `ofText_general`: so what is looked up is the same for all texts, and in order.
-/

namespace ContentSearch.Folded

open Text (ByteRange IsBoundary byteLength)

/-! ## texts of single-byte characters -/

theorem utf8Size_of_lt {c : Char} (h : c.toNat < 128) : c.utf8Size = 1 := by
  have hv : c.val ≤ 0x7F := UInt32.le_iff_toNat_le.2 (Nat.le_of_lt_succ h)
  simp [Char.utf8Size, hv]

theorem toLower_lt {c : Char} (h : c.toNat < 128) : c.toLower.toNat < 128 := by
  unfold Char.toLower
  split
  · next hc =>
    have hlt : c.val.toNat ≤ 90 := UInt32.le_iff_toNat_le.1 hc.2
    show (c.val + 32).toNat < 128
    rw [UInt32.toNat_add]
    simp only [UInt32.reduceToNat]
    omega
  · exact h

theorem byteLength_of_forall {t : Text} (h : ∀ c ∈ t, c.toNat < 128) : Text.byteLength t = t.length := by
  induction t with
  | nil => rfl
  | cons c t ih =>
    rw [Text.byteLength_cons, utf8Size_of_lt (h c (by simp)), ih fun d hd => h d (List.mem_cons_of_mem _ hd),
      List.length_cons, Nat.add_comm]

theorem isAscii_iff {t : Text} : isAscii t = true ↔ ∀ c ∈ t, c.toNat < 128 := by
  simp [isAscii]

theorem byteLength_asciiLowercase {t : Text} (h : ∀ c ∈ t, c.toNat < 128) :
    Text.byteLength (Text.asciiLowercase t) = Text.byteLength t := by
  have hlower : ∀ c ∈ Text.asciiLowercase t, c.toNat < 128 := by
    intro c hc
    obtain ⟨d, hd, rfl⟩ := List.mem_map.1 hc
    exact toLower_lt (h d hd)
  rw [byteLength_of_forall hlower, byteLength_of_forall h]
  exact List.length_map ..

theorem lowerEach_of_forall {t : Text} (h : ∀ c ∈ t, c.toNat < 128) : lowerEach t = Text.asciiLowercase t := by
  show t.flatMap Text.lowercaseChar = t.map Char.toLower
  rw [List.map_eq_flatMap]
  exact List.flatMap_congr fun c hc => Text.lowercaseChar_of_lt (h c hc)

theorem lower_ofText (t : Text) : (ofText t).lower = lowerEach t := by
  unfold ofText
  split
  · next hascii => exact (lowerEach_of_forall (isAscii_iff.1 hascii)).symm
  · rfl

theorem byteLength_lowerEach_of_forall {t : Text} (h : ∀ c ∈ t, c.toNat < 128) :
    byteLength (lowerEach t) = byteLength t := by
  rw [lowerEach_of_forall h, byteLength_asciiLowercase h]

/-! ## the origin of a byte -/

theorem lowerEach_append (s t : Text) : lowerEach (s ++ t) = lowerEach s ++ lowerEach t := List.flatMap_append

/-- Every byte of the copy comes from a character of the text: `s` are the characters before it. -/
theorem exists_origin {t : Text} {i : Nat} (h : i < Text.byteLength (lowerEach t)) (offset : Nat) :
    ∃ s c u, t = s ++ c :: u ∧ Text.byteLength (lowerEach s) ≤ i ∧ i < Text.byteLength (lowerEach (s ++ [c])) ∧
      (origins offset t)[i]? =
        some ⟨offset + Text.byteLength s, offset + Text.byteLength s + c.utf8Size⟩ := by
  induction t generalizing i offset with
  | nil => simp [lowerEach] at h
  | cons c t ih =>
    have hcons : lowerEach (c :: t) = Text.lowercaseChar c ++ lowerEach t := rfl
    rw [hcons, Text.byteLength_append] at h
    unfold origins
    by_cases hi : i < Text.byteLength (Text.lowercaseChar c)
    · refine ⟨[], c, t, rfl, Nat.zero_le _, by simpa [lowerEach] using hi, ?_⟩
      rw [List.getElem?_append_left (by simpa using hi), List.getElem?_replicate, if_pos hi]
      simp
    · have hsub : i - Text.byteLength (Text.lowercaseChar c) < Text.byteLength (lowerEach t) := by omega
      obtain ⟨s, d, u, rfl, h1, h2, h3⟩ := ih hsub (offset + c.utf8Size)
      have hs : ∀ v, lowerEach (c :: v) = Text.lowercaseChar c ++ lowerEach v := fun _ => rfl
      refine ⟨c :: s, d, u, rfl, ?_, ?_, ?_⟩
      · rw [hs, Text.byteLength_append]
        omega
      · rw [List.cons_append, hs, Text.byteLength_append]
        omega
      · rw [List.getElem?_append_right (by simpa using hi), List.length_replicate, h3]
        simp [Nat.add_assoc]

theorem lowerEach_mono {s s' u u' : Text} (h : s ++ u = s' ++ u') (hle : byteLength s ≤ byteLength s') :
    byteLength (lowerEach s) ≤ byteLength (lowerEach s') := by
  obtain ⟨m, rfl, -⟩ := Text.exists_prefix_of_le h hle
  rw [lowerEach_append, Text.byteLength_append]
  exact Nat.le_add_right ..

/-- No cut lies inside a character. -/
theorem byteLength_le_of_lt {s s' u u' : Text} {c : Char} (h : s ++ u = s' ++ c :: u')
    (hlt : byteLength s < byteLength (s' ++ [c])) : byteLength s ≤ byteLength s' := by
  refine Nat.le_of_not_lt fun hgt => ?_
  obtain ⟨m, rfl, hm⟩ := Text.exists_prefix_of_le h.symm (Nat.le_of_lt hgt)
  cases m with
  | nil => simp at hgt
  | cons d m =>
    obtain rfl : c = d := (List.cons.inj hm).1
    simp only [Text.byteLength_append, Text.byteLength_cons, Text.byteLength_nil] at hlt
    omega

section Order

variable {t s u v w : Text} {c d : Char} {i : Nat}

/-- The character `c` that a byte comes from is no later than a character `d` exactly if the byte lies before the end of what
`d` is lowered to. -/
theorem origin_le_iff (h : t = s ++ c :: u) (hi : byteLength (lowerEach s) ≤ i) (hj : i < byteLength (lowerEach (s ++ [c])))
    (h' : t = v ++ d :: w) : byteLength s ≤ byteLength v ↔ i < byteLength (lowerEach (v ++ [d])) := by
  constructor
  · intro hle
    have hle' : byteLength (s ++ [c]) ≤ byteLength (v ++ [d]) := by
      refine Nat.le_of_not_lt fun hlt => ?_
      have hback := byteLength_le_of_lt (by rw [List.append_assoc]; exact h'.symm.trans h) hlt
      have hd := Char.utf8Size_pos d
      simp only [Text.byteLength_append, Text.byteLength_cons] at hback
      omega
    exact Nat.lt_of_lt_of_le hj (lowerEach_mono (by simpa using h.symm.trans h') hle')
  · intro hlt
    refine byteLength_le_of_lt (h.symm.trans h') (Nat.lt_of_not_le fun hle => ?_)
    have hmono := lowerEach_mono (by simpa using h'.symm.trans h) hle
    omega

/-- And it is no earlier exactly if the byte does not lie before the beginning. -/
theorem lt_origin_iff (h : t = s ++ c :: u) (hi : byteLength (lowerEach s) ≤ i) (hj : i < byteLength (lowerEach (s ++ [c])))
    (h' : t = v ++ d :: w) : byteLength v < byteLength (s ++ [c]) ↔ byteLength (lowerEach v) ≤ i := by
  constructor
  · intro hlt
    have hle := byteLength_le_of_lt (h'.symm.trans h) hlt
    exact Nat.le_trans (lowerEach_mono (h'.symm.trans h) hle) hi
  · intro hle
    refine Nat.lt_of_not_le fun hlt => ?_
    have hmono := lowerEach_mono (by simpa using h.symm.trans h') hlt
    omega

end Order

/-! ## the origin of a range -/

/-- The range `o` of a text is where the range `r` of its copy comes from.  It is cut between characters, not empty, and begins
with the first and ends with the last of the characters whose lowercase forms meet `r`. -/
structure IsOrigin (t : Text) (r o : ByteRange) : Prop where
  start_boundary : IsBoundary t o.start
  stop_boundary : IsBoundary t o.stop
  lt : o.start < o.stop
  start_le_iff : ∀ s c u, t = s ++ c :: u → (o.start ≤ byteLength s ↔ r.start < byteLength (lowerEach (s ++ [c])))
  lt_stop_iff : ∀ s c u, t = s ++ c :: u → (byteLength s < o.stop ↔ byteLength (lowerEach s) < r.stop)

theorem IsOrigin.exists_part {t : Text} {r o : ByteRange} (h : IsOrigin t r o) :
    ∃ before w after, t = before ++ w ++ after ∧ w ≠ [] ∧ o = ⟨byteLength before, byteLength before + byteLength w⟩ := by
  obtain ⟨before, w, after, ht, ho⟩ := Text.isPart_of_boundaries h.start_boundary h.stop_boundary (Nat.le_of_lt h.lt)
  refine ⟨before, w, after, ht, ?_, ho⟩
  rintro rfl
  obtain rfl : o = ⟨byteLength before, byteLength before⟩ := ho
  exact absurd h.lt (Nat.lt_irrefl _)

theorem IsOrigin.start_le {t : Text} {r r' o o' : ByteRange} (h : IsOrigin t r o) (h' : IsOrigin t r' o')
    (hle : r.start ≤ r'.start) : o.start ≤ o'.start := by
  obtain ⟨s, w, u, rfl, hw, rfl⟩ := h'.exists_part
  obtain ⟨c, w, rfl⟩ := List.exists_cons_of_ne_nil hw
  have htext : s ++ (c :: w) ++ u = s ++ c :: (w ++ u) := by simp
  have hfirst := (h'.start_le_iff s c (w ++ u) htext).1 (Nat.le_refl _)
  exact (h.start_le_iff s c (w ++ u) htext).2 (Nat.lt_of_le_of_lt hle hfirst)

theorem IsOrigin.stop_le {t : Text} {r r' o o' : ByteRange} (h : IsOrigin t r o) (h' : IsOrigin t r' o')
    (hle : r.stop ≤ r'.stop) : o.stop ≤ o'.stop := by
  obtain ⟨s, w, u, rfl, hw, rfl⟩ := h.exists_part
  obtain ⟨v, u', ht, hv⟩ := h'.stop_boundary
  obtain ⟨w, c, rfl⟩ := List.eq_nil_or_concat w |>.resolve_left hw
  have htext : s ++ w.concat c ++ u = (s ++ w) ++ c :: u := by simp
  have hlast := (h.lt_stop_iff (s ++ w) c u htext).1 (by simp [Char.utf8Size_pos])
  have hbefore := (h'.lt_stop_iff (s ++ w) c u htext).2 (Nat.lt_of_lt_of_le hlast hle)
  -- the boundary after the last character of the one range is the next that the other range may end at
  refine Nat.le_of_not_lt fun hlt => ?_
  have hback := byteLength_le_of_lt (ht.symm.trans htext) (by simpa [hv, Nat.add_assoc] using hlt)
  omega

/-! ## looking up an origin -/

/-- The lowercase copy of a text with the origins of all its bytes, whatever characters the text has. -/
def general (t : Text) : Folded := ⟨lowerEach t, (origins 0 t).toArray⟩

theorem length_origins (offset : Nat) (t : Text) : (origins offset t).length = byteLength (lowerEach t) := by
  induction t generalizing offset with
  | nil => rfl
  | cons c t ih =>
    rw [origins, List.length_append, List.length_replicate, ih, ← Text.byteLength_append]
    rfl

theorem originRange_general {t : Text} {r first last : ByteRange} (hlt : r.start < r.stop)
    (hfirst : (origins 0 t)[r.start]? = some first) (hlast : (origins 0 t)[r.stop - 1]? = some last) :
    (general t).originRange r = .ok ⟨first.start, last.stop⟩ := by
  have hspans : origins 0 t ≠ [] := List.ne_nil_of_mem (List.mem_of_getElem? hfirst)
  have hne : ¬ ((general t).spans.isEmpty || decide (r.stop ≤ r.start)) = true := by simp [general, hspans, hlt]
  rw [originRange, if_neg hne]
  simp only [general, List.getElem?_toArray, hfirst, hlast]

/-- The origins of the first and the last byte of a range make up the origin of the range. -/
theorem exists_isOrigin_of_lt {t : Text} {r : ByteRange} (hlt : r.start < r.stop) (hle : r.stop ≤ byteLength (lowerEach t)) :
    ∃ o, (general t).originRange r = .ok o ∧ IsOrigin t r o := by
  -- `c₁` is the first character whose form meets the range, and `c₂` the last one
  obtain ⟨s₁, c₁, u₁, h₁, hi₁, hj₁, hget₁⟩ := exists_origin (t := t) (i := r.start) (by omega) 0
  obtain ⟨s₂, c₂, u₂, h₂, hi₂, hj₂, hget₂⟩ := exists_origin (t := t) (i := r.stop - 1) (by omega) 0
  rw [Nat.zero_add] at hget₁ hget₂
  have hstop (v : Text) (c : Char) (w : Text) (htext : t = v ++ c :: w) :
      byteLength v < byteLength s₂ + c₂.utf8Size ↔ byteLength (lowerEach v) < r.stop := by
    have hiff := lt_origin_iff h₂ hi₂ hj₂ htext
    simp only [Text.byteLength_append, Text.byteLength_cons, Text.byteLength_nil] at hiff
    omega
  exact ⟨⟨byteLength s₁, byteLength s₂ + c₂.utf8Size⟩,
    originRange_general hlt hget₁ hget₂,
    ⟨⟨s₁, c₁ :: u₁, h₁, rfl⟩, ⟨s₂ ++ [c₂], u₂, by simpa using h₂, by simp⟩, (hstop s₁ c₁ u₁ h₁).2 (by omega),
      fun v c w => origin_le_iff h₁ hi₁ hj₁, hstop⟩⟩

/-- In a text of single-byte characters every byte of the copy comes from the byte at its own offset. -/
theorem getElem?_origins_of_isAscii {t : Text} {i : Nat} (ht : isAscii t = true) (h : i < byteLength (lowerEach t)) :
    (origins 0 t)[i]? = some ⟨i, i + 1⟩ := by
  obtain ⟨s, c, u, rfl, hi, hj, hget⟩ := exists_origin h 0
  have hascii := isAscii_iff.1 ht
  have hc : c.utf8Size = 1 := utf8Size_of_lt (hascii c (by simp))
  have hs : byteLength (lowerEach s) = byteLength s := byteLength_lowerEach_of_forall fun d hd => hascii d (by simp [hd])
  have hsc : byteLength (lowerEach (s ++ [c])) = byteLength (s ++ [c]) := by
    refine byteLength_lowerEach_of_forall fun d hd => hascii d ?_
    rw [List.append_cons]
    exact List.mem_append_left u hd
  simp only [hs, hsc, Text.byteLength_append, Text.byteLength_cons, Text.byteLength_nil, hc] at hi hj
  obtain rfl : i = byteLength s := by omega
  rw [hget, Nat.zero_add, hc]

theorem originRange_general_of_isAscii {t : Text} {r : ByteRange} (ht : isAscii t = true) (hlt : r.start < r.stop)
    (hle : r.stop ≤ byteLength (lowerEach t)) : (general t).originRange r = .ok r := by
  have hfirst := getElem?_origins_of_isAscii (i := r.start) ht (by omega)
  have hlast := getElem?_origins_of_isAscii (i := r.stop - 1) ht (by omega)
  rw [originRange_general hlt hfirst hlast, Nat.sub_add_cancel (by omega)]

/-- What is looked up does not depend on whether the origins are listed. -/
theorem originRange_ofText {t : Text} {r : ByteRange} (hlt : r.start < r.stop) (hle : r.stop ≤ byteLength (lowerEach t)) :
    (ofText t).originRange r = (general t).originRange r := by
  cases ht : isAscii t with
  | false => rw [ofText, if_neg (by simp [ht]), general]
  | true =>
    rw [originRange_general_of_isAscii ht hlt hle, ofText, if_pos ht]
    rfl

/-- **A part of the copy comes from a part of the text**, which is looked up. -/
theorem exists_isOrigin {t s m u : Text} (h : lowerEach t = s ++ m ++ u) (hm : m ≠ []) :
    ∃ o, (ofText t).originRange ⟨byteLength s, byteLength s + byteLength m⟩ = .ok o ∧
      IsOrigin t ⟨byteLength s, byteLength s + byteLength m⟩ o := by
  have hlt : byteLength s < byteLength s + byteLength m := Nat.lt_add_of_pos_right (Text.byteLength_pos hm)
  have hle : byteLength s + byteLength m ≤ byteLength (lowerEach t) := by
    rw [h, Text.byteLength_append, Text.byteLength_append]
    exact Nat.le_add_right ..
  rw [originRange_ofText hlt hle]
  exact exists_isOrigin_of_lt hlt hle

/-- **The table of origins can be left out, and order is kept.**  The copy of every text is made character by character, and
each of its bytes has an origin.  Every range of bytes of the copy that is not empty, a range between characters in particular,
comes from the range that the table of origins gives, which is the range itself in a text of single-byte characters.  This is
not empty and lies between characters of the text; and of two ranges of the copy, the one that begins no later comes from
a range that begins no later, and the one that ends no later from a range that ends no later. -/
theorem ofText_general (t : Text) :
    (ofText t).lower = (general t).lower ∧ (general t).spans.size = byteLength (general t).lower ∧
      (∀ r : ByteRange, r.start < r.stop → r.stop ≤ byteLength (ofText t).lower →
        (ofText t).originRange r = (general t).originRange r ∧
          (isAscii t = true → (general t).originRange r = .ok r) ∧
          ∃ o, (ofText t).originRange r = .ok o ∧ IsOrigin t r o) ∧
      ∀ r r' o o' : ByteRange, r.start < r.stop → r.stop ≤ byteLength (ofText t).lower →
        r'.start < r'.stop → r'.stop ≤ byteLength (ofText t).lower →
        (ofText t).originRange r = .ok o → (ofText t).originRange r' = .ok o' →
        (r.start ≤ r'.start → o.start ≤ o'.start) ∧ (r.stop ≤ r'.stop → o.stop ≤ o'.stop) := by
  have horigin : ∀ r : ByteRange, r.start < r.stop → r.stop ≤ byteLength (lowerEach t) →
      ∃ o, (ofText t).originRange r = .ok o ∧ IsOrigin t r o := fun r hlt hle => by
    rw [originRange_ofText hlt hle]
    exact exists_isOrigin_of_lt hlt hle
  rw [lower_ofText]
  refine ⟨rfl, ?_, fun r hlt hle => ⟨originRange_ofText hlt hle, fun ht => originRange_general_of_isAscii ht hlt hle,
    horigin r hlt hle⟩, fun r r' o o' hlt hle hlt' hle' ho ho' => ?_⟩
  · rw [general, List.size_toArray, length_origins]
  · obtain ⟨p, hp, hr⟩ := horigin r hlt hle
    obtain ⟨p', hp', hr'⟩ := horigin r' hlt' hle'
    obtain rfl : p = o := Except.ok.inj (hp.symm.trans ho)
    obtain rfl : p' = o' := Except.ok.inj (hp'.symm.trans ho')
    exact ⟨hr.start_le hr', hr.stop_le hr'⟩

example : (ofText "İstanbul".toList).originRange ⟨0, 4⟩ = .ok ⟨0, 3⟩ := by cbv

end ContentSearch.Folded
