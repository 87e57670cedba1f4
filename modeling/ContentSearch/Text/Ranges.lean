/-!
Membership of a character in a table of code point ranges in ascending order.
-/

namespace ContentSearch.Text

/-- Whether a code point lies in one of the ranges, which are given in ascending order with both
ends included. -/
def inRanges (n : Nat) : List (Nat × Nat) → Bool
  | [] => false
  | (first, last) :: rest => if n < first then false else n ≤ last || inRanges n rest

theorem exists_of_inRanges {n : Nat} {l : List (Nat × Nat)} (h : inRanges n l = true) :
    ∃ r ∈ l, r.1 ≤ n ∧ n ≤ r.2 := by
  induction l with
  | nil => simp [inRanges] at h
  | cons r l ih =>
    obtain ⟨a, b⟩ := r
    simp only [inRanges] at h
    split at h
    · simp at h
    · rcases (by simpa using h : n ≤ b ∨ inRanges n l = true) with h | h
      · exact ⟨(a, b), by simp, by simp; omega, h⟩
      · obtain ⟨r, hr, hb⟩ := ih h
        exact ⟨r, by simp [hr], hb⟩

end ContentSearch.Text
