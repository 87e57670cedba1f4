import ContentSearch.Proofs.Match.Distances
import ContentSearch.Proofs.Match.Table
import ContentSearch.Search.FieldMatch

/-!
# Nearest words

A matcher gives no distance above its threshold, and where two texts differ too much in length it does not even compute it.
Neither keeps it from the word that is nearest to any of some terms.

* `wordDistance?_eq_filter`: a matcher gives the distances that are no greater than its threshold, since the share of edits
  is at least the share of the characters by which one text is longer;
* `exists_of_closestWord?`: the word that is found for a term is a word of the list, and as near as it is reported to be;
* `nearest?_spec`: of words with their distances the first of the nearest is found;
* `isNearest_of_nearest?`: so the word that is found for several terms is nearest to one of them.
-/

namespace ContentSearch

open Scalar Scalar.LawfulOrder Scalar.LawfulArithmetic

/-! ## distances without a threshold -/

section Definitions

variable {α : Type} [Scalar α]

/-- The distance of a lowercase term to a lowercase word, whether or not a matcher accepts it. -/
def Matcher.unboundedDistance? (term word : Text) (fuzzy : Bool) : Option α :=
  if term = word then some (ofNat 0)
  else if term.isEmpty || word.isEmpty then none
  else if Text.occursIn term word then
    some (containmentPenalty * (ofNat 1 - ofNat term.length / ofNat word.length))
  else if !fuzzy then none
  else some (EditDistance.normalized term word)

/-- A word of a list is nearest to one of some terms: no term is nearer to any word of the list. -/
structure Matcher.IsNearest (α : Type) [Scalar α] (terms words : List Text) (fuzzy : Bool) (word : Text) : Prop where
  mem : word ∈ words
  least : ∃ term ∈ terms, ∃ d : α, unboundedDistance? term word fuzzy = some d ∧
    ∀ term' ∈ terms, ∀ word' ∈ words, ∀ d' : α, unboundedDistance? term' word' fuzzy = some d' → ¬ d' < d

end Definitions

variable {α : Type} [Scalar α] [LawfulArithmetic α]

theorem EditDistance.difference_le_normalized {a b : Text} (ha : a ≠ [])
    (h : (ofNat 0 : α) < ofNat (max a.length b.length - min a.length b.length) / ofNat (max a.length b.length)) :
    (ofNat (max a.length b.length - min a.length b.length) / ofNat (max a.length b.length) : α) ≤ normalized a b := by
  have hfinite : isFinite (ofNat (max a.length b.length) : α) = true :=
    isFinite_of_div_pos (zero_le_ofNat _) (zero_le_ofNat _) h
  have hedits : max a.length b.length - min a.length b.length ≤ distance a b := by
    rw [distance_eq_leastCost]
    have hlength := length_le_leastCost a b
    omega
  have hlonger : 0 < max a.length b.length := lt_max_of_lt_left (List.length_pos_iff.2 ha)
  rw [normalized, if_neg (Nat.ne_of_gt hlonger)]
  exact div_le_div (zero_le_ofNat _) (ofNat_le_ofNat hedits) (zero_lt_ofNat hlonger) hfinite

namespace Matcher

variable {m : Matcher α} {term word : Text} {terms words : List Text} {fuzzy : Bool}

/-- **A matcher gives the distances that are no greater than its threshold.** -/
theorem wordDistance?_eq_filter (hm : m.Valid) :
    m.wordDistance? term word fuzzy = (unboundedDistance? term word fuzzy).filter fun d => decide (d ≤ m.threshold) := by
  have haccept (d : α) : m.accept d = (some d).filter fun d => decide (d ≤ m.threshold) := by
    rw [accept, Option.filter_some]
    simp
  unfold wordDistance? unboundedDistance?
  split
  · simp [Option.filter_some, hm.nonneg]
  split
  · rfl
  next hempty =>
  have hterm : term ≠ [] := by
    rintro rfl
    exact hempty rfl
  split
  · exact haccept _
  split
  · rfl
  dsimp only
  split
  · next hbound =>
    have hpos := lt_of_le_of_lt hm.nonneg hbound
    have hlt := lt_of_lt_of_le hbound (EditDistance.difference_le_normalized hterm hpos)
    have hnot : ¬ (EditDistance.normalized term word : α) ≤ m.threshold := (lt_iff.1 hlt).2
    simp [Option.filter_some, hnot]
  · exact haccept _

omit [LawfulArithmetic α] in
theorem wordDistance?_of_length (hlength : word.length < term.length)
    (hfar : m.threshold < ofNat (term.length - word.length) / ofNat term.length) : m.wordDistance? term word fuzzy = none := by
  have hne : term ≠ word := fun h => Nat.lt_irrefl _ (h ▸ hlength)
  have hoccurs : Text.occursIn term word = false :=
    Bool.eq_false_iff.2 fun h => Nat.not_le_of_lt hlength (Text.occursIn_iff.1 h).length_le
  unfold wordDistance?
  rw [if_neg hne, hoccurs, Nat.max_eq_left hlength.le, Nat.min_eq_right hlength.le]
  simp [hfar]

theorem wordDistance?_eq_some_iff_le (hm : m.Valid) {d : α} :
    m.wordDistance? term word fuzzy = some d ↔ unboundedDistance? term word fuzzy = some d ∧ d ≤ m.threshold := by
  rw [wordDistance?_eq_filter hm, Option.filter_eq_some_iff, decide_eq_true_iff]

/-! ## the nearest word to a term -/

/-- The word that is found after another one is that one, or a word of the list that is as near as it is reported to be. -/
theorem exists_of_closestWordAfter? (hm : m.Valid) {best? : Option (Text × α)} {r : Text × α}
    (h : m.closestWordAfter? term fuzzy best? words = some r) :
    best? = some r ∨ r.1 ∈ words ∧ ∃ d, m.wordDistance? term r.1 fuzzy = some d ∧ d ≤ r.2 := by
  induction words generalizing best? with
  | nil => exact .inl h
  | cons word words ih =>
    rw [closestWordAfter?] at h
    cases hword : m.wordDistance? term word fuzzy with
    | none =>
      rw [hword] at h
      exact (ih h).imp_right (And.imp_left (List.mem_cons_of_mem word))
    | some d =>
      rw [hword] at h
      dsimp only at h
      have hd : d ≤ d := le_self_right (wordDistance?_bounds hm hword).1
      -- whichever is the nearest so far
      have hlater (nearer : Bool) (h : m.closestWordAfter? term fuzzy (if nearer then some (word, d) else best?) words =
          some r) : best? = some r ∨ r.1 ∈ word :: words ∧ ∃ d, m.wordDistance? term r.1 fuzzy = some d ∧ d ≤ r.2 := by
        rcases ih h with hr | ⟨hmem, hr⟩
        · cases nearer with
          | false => exact .inl hr
          | true =>
            rw [← Option.some.inj hr]
            exact .inr ⟨List.mem_cons_self, d, hword, hd⟩
        · exact .inr ⟨List.mem_cons_of_mem _ hmem, hr⟩
      split at h
      · next hzero =>
        rw [← Option.some.inj h]
        exact .inr ⟨List.mem_cons_self, d, hword, (beq_iff.1 hzero).1⟩
      · exact hlater _ h

theorem exists_of_closestWord? (hm : m.Valid) {r : Text × α} (h : m.closestWord? term words fuzzy = some r) :
    r.1 ∈ words ∧ ∃ d, m.wordDistance? term r.1 fuzzy = some d ∧ d ≤ r.2 :=
  (exists_of_closestWordAfter? hm h).resolve_left (Option.some_ne_none r ∘ Eq.symm)

end Matcher

/-! ## the nearest word to several terms -/

namespace FieldMatch

theorem mem_of_nearest? {α : Type} [Scalar α] {l : List (Text × α)} {r : Text × α} (h : nearest? l = some r) : r ∈ l := by
  induction l generalizing r with
  | nil => exact absurd h (Option.some_ne_none r ∘ Eq.symm)
  | cons w l ih =>
    rw [nearest?] at h
    split at h
    · rw [← Option.some.inj h]
      exact List.mem_cons_self
    · next v hv =>
      split at h
      · rw [← Option.some.inj h]
        exact List.mem_cons_of_mem _ (ih hv)
      · rw [← Option.some.inj h]
        exact List.mem_cons_self

/-- Of some words with their distances one of the nearest is found, and there is one if there are words. -/
theorem nearest?_spec {l : List (Text × α)} (hl : ∀ v ∈ l, v.2 ≤ v.2) : FindsLeast (nearest? l) (l.map (·.2)) := by
  induction l with
  | nil => exact ⟨fun _ => rfl, fun r h => absurd h (Option.some_ne_none r ∘ Eq.symm)⟩
  | cons w l ih =>
    obtain ⟨hw, hl⟩ := List.forall_mem_cons.1 hl
    have hrest := ih hl
    rw [nearest?, List.map_cons]
    cases hv : nearest? l with
    | none =>
      rw [hrest.none hv]
      refine ⟨fun h => absurd h (Option.some_ne_none w), fun r hr => ?_⟩
      rw [← Option.some.inj hr]
      exact ⟨List.forall_mem_singleton.2 hw, w.2, List.mem_singleton_self _, hw⟩
    | some v =>
      obtain ⟨hle, e, he, hev⟩ := hrest.some v hv
      dsimp only
      by_cases hlt : v.2 < w.2
      · rw [if_pos hlt]
        refine ⟨fun h => absurd h (Option.some_ne_none v), fun r hr => ?_⟩
        rw [← Option.some.inj hr]
        exact ⟨List.forall_mem_cons.2 ⟨le_of_lt hlt, hle⟩, e, List.mem_cons_of_mem _ he, hev⟩
      · have hwv : w.2 ≤ v.2 := le_of_not_lt (le_self_right hev) hw hlt
        rw [if_neg hlt]
        refine ⟨fun h => absurd h (Option.some_ne_none w), fun r hr => ?_⟩
        rw [← Option.some.inj hr]
        exact ⟨List.forall_mem_cons.2 ⟨hw, fun e he => le_trans hwv (hle e he)⟩, w.2, List.mem_cons_self, hw⟩

end FieldMatch

namespace Matcher

variable {m : Matcher α} {term word : Text} {terms words : List Text} {fuzzy : Bool}

theorem nearest?_closestWord?_spec (hm : m.Valid) :
    FindsLeast (FieldMatch.nearest? (terms.filterMap fun term => m.closestWord? term words fuzzy))
      ((terms.filterMap fun term => m.closestWord? term words fuzzy).map (·.2)) := by
  refine FieldMatch.nearest?_spec fun v hv => ?_
  obtain ⟨term, -, hterm⟩ := List.mem_filterMap.1 hv
  obtain ⟨-, d, -, hd⟩ := exists_of_closestWord? hm hterm
  exact le_self_right hd

/-- **The word that is found for several terms is nearest to one of them**, among all words and to all terms. -/
theorem isNearest_of_nearest? (hm : m.Valid) {r : Text × α}
    (h : FieldMatch.nearest? (terms.filterMap fun term => m.closestWord? term words fuzzy) = some r) :
    IsNearest α terms words fuzzy r.1 := by
  have hleast := (nearest?_closestWord?_spec hm).some r h
  obtain ⟨term, hterm, hr⟩ := List.mem_filterMap.1 (FieldMatch.mem_of_nearest? h)
  obtain ⟨hmem, d, hd, hdr⟩ := exists_of_closestWord? hm hr
  obtain ⟨hd, hthreshold⟩ := (wordDistance?_eq_some_iff_le hm).1 hd
  refine ⟨hmem, term, hterm, d, hd, ?_⟩
  intro term' hterm' word' hword' d' hd' hlt
  -- a nearer word would have been accepted, and so it would have been found for its term
  have haccepted : m.wordDistance? term' word' fuzzy = some d' :=
    (wordDistance?_eq_some_iff_le hm).2 ⟨hd', le_trans (le_of_lt hlt) hthreshold⟩
  have hdistances : d' ∈ m.distances term' fuzzy words := List.mem_filterMap.2 ⟨word', hword', haccepted⟩
  have hspec : FindsLeast (m.closestWord? term' words fuzzy) (m.distances term' fuzzy words) := closestWord?_spec hm
  cases hr' : m.closestWord? term' words fuzzy with
  | none =>
    rw [hspec.none hr'] at hdistances
    exact absurd hdistances List.not_mem_nil
  | some r' =>
    have hle : r'.2 ≤ d' := (hspec.some r' hr').le d' hdistances
    have hfound : r' ∈ terms.filterMap fun term => m.closestWord? term words fuzzy :=
      List.mem_filterMap.2 ⟨term', hterm', hr'⟩
    exact not_lt_of_le (le_trans hdr (le_trans (hleast.le _ (List.mem_map_of_mem hfound)) hle)) hlt

end Matcher
end ContentSearch
