import ContentSearch.Text.Words

/-!
# Words in place

The segments of a text lie one after another, so that the offset of a piece is the length of the pieces before it
(`offset_of_withOffsets`).  `IsFirstWord` says where the first word with a lowercase form stands.

In a segment a full stop awaits the character after it (`extent_cases`), so that no segment ends with one, save for the full
stop on its own (`eq_of_mem_segments`).
-/

namespace ContentSearch.Text

/-! ## offsets -/

theorem map_snd_withOffsets (n : Nat) (l : List Text) : (withOffsets n l).map (·.2) = l := by
  induction l generalizing n with
  | nil => rfl
  | cons w l ih => rw [withOffsets, List.map_cons, ih]

/-- The offset of a piece is the length of the pieces before it. -/
theorem offset_of_withOffsets {n k : Nat} {l : List Text} {w : Text} {as bs : List (Nat × Text)}
    (h : withOffsets n l = as ++ (k, w) :: bs) : k = n + byteLength (as.map (·.2)).flatten := by
  induction as generalizing n l with
  | nil =>
    cases l with
    | nil => exact absurd h (List.cons_ne_nil _ _ ∘ Eq.symm)
    | cons v l =>
      obtain ⟨rfl, -⟩ := Prod.mk.inj (List.cons.inj h).1
      rfl
  | cons a as ih =>
    cases l with
    | nil => exact absurd h (List.cons_ne_nil _ _ ∘ Eq.symm)
    | cons v l =>
      rw [withOffsets, List.cons_append] at h
      obtain ⟨rfl, htail⟩ := List.cons.inj h
      rw [ih htail]
      simp [Nat.add_assoc]

/-! ## full stops -/

theorem wordClass_stop : wordClass '.' = .midNumLet := by decide +kernel

/-- A count of characters that starts before a text at `n` comes to `r` after a character that is not a full stop. -/
def ReachesOther (t : Text) (n r : Nat) : Prop := ∃ v d u, t = v ++ d :: u ∧ d ≠ '.' ∧ r = n + v.length + 1

theorem reachesOther_head {c : Char} (hc : c ≠ '.') (t : Text) (n : Nat) : ReachesOther (c :: t) n (n + 1) :=
  ⟨[], c, t, rfl, hc, rfl⟩

theorem ReachesOther.cons {t : Text} {n r : Nat} (h : ReachesOther t (n + 1) r) (c : Char) : ReachesOther (c :: t) n r := by
  obtain ⟨v, d, u, rfl, hd, rfl⟩ := h
  exact ⟨c :: v, d, u, rfl, hd, by rw [List.length_cons]; omega⟩

namespace SegmentState

variable {state state' : SegmentState} {skipped : Bool} {k : WordClass}

theorem awaits_of_midNumLet (h : state.next skipped .midNumLet = some state') : state'.awaits = true := by
  cases state <;> simp only [next, Option.some.injEq, reduceCtorEq] at h <;> rw [← h] <;> rfl

theorem not_awaits_of_next (h : state.next skipped k = some state') (h' : state'.awaits = true) : state.awaits = false := by
  cases state <;> try rfl
  all_goals
    cases k <;> simp only [next, Option.some.injEq, reduceCtorEq] at h <;> rw [← h] at h' <;> exact absurd h' (by decide)

/-- A segment goes on to the end of a character that is not a full stop. The induction is on the characters: a full stop is
awaited by nothing and awaits a character itself, so that the segment goes back to before it unless that comes. -/
theorem extent_cases (state : SegmentState) (afterJoiner skipped : Bool) (n saved : Nat) (t : Text) :
    state.extent afterJoiner skipped n saved t = (if state.awaits then saved else n) ∨
      ReachesOther t n (state.extent afterJoiner skipped n saved t) := by
  have hother {c : Char} (hc : wordClass c ≠ .midNumLet) : c ≠ '.' := fun h => hc (h ▸ wordClass_stop)
  fun_induction SegmentState.extent state afterJoiner skipped n saved t with
  | case1 _ _ _ _ _ hawaits | case5 _ _ _ _ _ _ _ _ _ _ _ hawaits => exact .inl (if_pos hawaits).symm
  | case2 _ _ _ _ _ hawaits | case6 _ _ _ _ _ _ _ _ _ _ _ hawaits => exact .inl (if_neg hawaits).symm
  | case3 state _ _ n saved c t k hpassed ih =>
    rcases ih with h | h
    · rw [h]
      split
      · exact .inl rfl
      · have hk : k ≠ .midNumLet := by
          intro hk
          rw [hk] at hpassed
          exact absurd hpassed (by decide)
        exact .inr (reachesOther_head (hother hk) t n)
    · exact .inr (h.cons c)
  | case4 state afterJoiner _ n saved c t k _ hpictograph ih =>
    right
    rcases ih with h | h
    · rw [h]
      refine reachesOther_head ?_ t n
      rintro rfl
      exact absurd (Bool.and_eq_true_iff.1 hpictograph).2 (by decide +kernel)
    · exact h.cons c
  | case7 state _ _ n saved c t k _ _ state' hnext ih =>
    rcases ih with h | h
    · rw [h]
      cases hawaits : state'.awaits with
      | true =>
        rw [not_awaits_of_next hnext hawaits]
        exact .inl rfl
      | false =>
        have hk : k ≠ .midNumLet := by
          intro hk
          rw [hk] at hnext
          exact absurd hawaits (by simp [awaits_of_midNumLet hnext])
        exact .inr (reachesOther_head (hother hk) t n)
    · exact .inr (h.cons c)

end SegmentState

/-- A segment goes on to the end of a character that is not a full stop, if it goes on after its first character. -/
theorem segmentExtent_cases (c : Char) (t : Text) : segmentExtent c t = 0 ∨ ReachesOther t 0 (segmentExtent c t) := by
  have hextent (state : SegmentState) (afterJoiner : Bool) :
      state.extent afterJoiner false 0 0 t = 0 ∨ ReachesOther t 0 (state.extent afterJoiner false 0 0 t) := by
    have h := state.extent_cases afterJoiner false 0 0 t
    rwa [ite_self] at h
  unfold segmentExtent
  cases wordClass c with
  | carriageReturn =>
    dsimp only
    split
    · next h =>
      -- a line feed goes on with a carriage return
      obtain ⟨u, rfl⟩ : ∃ u, t = '\n' :: u := by
        cases t with
        | nil => exact absurd h (by simp)
        | cons d u => exact ⟨u, by rw [Option.some.inj h]⟩
      exact .inr (reachesOther_head (by decide) u 0)
    · exact .inl rfl
  | lineFeed | newline => exact .inl rfl
  | letter | hebrewLetter | numeric | katakana | connector | regionalIndicator | segmentSpace | joiner => exact hextent _ _
  | midLetter | midNum | midNumLet | singleQuote | doubleQuote | extend | format | other =>
    dsimp only
    split
    · exact hextent .marked false
    · exact .inl rfl

/-- **No segment ends with a full stop**, save for one that is nothing else. -/
theorem eq_of_mem_segments {t w : Text} (hw : w ∈ segments t) (h : w.getLast? = some '.') : w = ['.'] := by
  fun_induction segments t with
  | case1 => exact absurd hw List.not_mem_nil
  | case2 c t ih =>
    rcases List.mem_cons.1 hw with rfl | hw
    · rcases segmentExtent_cases c t with hzero | ⟨v, d, u, htext, hd, hextent⟩
      · rw [hzero, List.take_zero] at h ⊢
        obtain rfl : c = '.' := Option.some.inj h
        rfl
      · have hrun : t.take (segmentExtent c t) = v ++ [d] := by
          rw [hextent, htext, Nat.zero_add, List.append_cons]
          exact List.take_left' List.length_append
        rw [hrun, ← List.cons_append, List.getLast?_concat] at h
        exact absurd (Option.some.inj h) hd
    · exact ih hw

/-! ## first words -/

/-- The first word of a text that has a lowercase form, between the texts before and after it. -/
structure IsFirstWord (t word before w after : Text) : Prop where
  segments : ∃ l₁ l₂, segments t = l₁ ++ w :: l₂ ∧ l₁.flatten = before ∧ l₂.flatten = after ∧
    ∀ v ∈ l₁, v.any isAlphanumeric = true → lowercase v ≠ word
  isWord : w.any isAlphanumeric = true
  lower : lowercase w = word

theorem IsFirstWord.append {t word before w after : Text} (h : IsFirstWord t word before w after) :
    before ++ w ++ after = t := by
  obtain ⟨l₁, l₂, hl, rfl, rfl, -⟩ := h.segments
  rw [← flatten_segments t, hl]
  simp

theorem IsFirstWord.ne_nil {t word before w after : Text} (h : IsFirstWord t word before w after) : w ≠ [] := by
  rintro rfl
  exact absurd h.isWord (by simp)

theorem IsFirstWord.getLast?_ne {t word before w after : Text} (h : IsFirstWord t word before w after) :
    w.getLast? ≠ some '.' := by
  obtain ⟨l₁, l₂, hl, -⟩ := h.segments
  intro hlast
  have hw := h.isWord
  rw [eq_of_mem_segments (hl ▸ List.mem_append_right l₁ List.mem_cons_self) hlast] at hw
  exact absurd hw (by decide +kernel)

end ContentSearch.Text
