import ContentSearch.Match.Fuzzy
import ContentSearch.Proofs.Number.Laws
import ContentSearch.Proofs.Text.Occurrence

/-!
# Distances of terms to words

The distances that a matcher gives are numbers from 0 up to its threshold, whatever they are computed in
(`wordDistance?_bounds`), and the word that it finds in a list is at the least of the distances to the words
(`closestWordAfter?_spec`).

A matcher tolerates more than another if its threshold is no lower.  It gives every distance that the other one gives
(`wordDistance?_of_le`), and so a quality that is at least as high (`matchQuality?_of_le`).
-/

namespace ContentSearch

open Scalar Scalar.LawfulOrder Scalar.LawfulArithmetic

section Definitions

variable {α : Type} [Scalar α]

/-- No number of a list is less than `d`, and one is no greater. -/
structure Least (d : α) (ds : List α) : Prop where
  le : ∀ e ∈ ds, d ≤ e
  attained : ∃ e ∈ ds, e ≤ d

/-- What is found in a list of numbers: the least of them, or nothing if there are none. -/
structure FindsLeast (r? : Option (Text × α)) (ds : List α) : Prop where
  none : r? = none → ds = []
  some : ∀ r, r? = some r → Least r.2 ds

namespace Matcher

/-- The threshold lies between 0 and 1. -/
structure Valid (m : Matcher α) : Prop where
  nonneg : ofNat 0 ≤ m.threshold
  le_one : m.threshold ≤ ofNat 1

/-- The distances of a term to those words of a list that match it. -/
def distances (m : Matcher α) (term : Text) (fuzzy : Bool) (words : List Text) : List α :=
  words.filterMap fun word => m.wordDistance? term word fuzzy

end Matcher

end Definitions

variable {α : Type} [Scalar α] [LawfulArithmetic α]

/-! ## least numbers -/

namespace FindsLeast

variable {r? : Option (Text × α)} {a b : α} {ds : List α}

theorem cons (h : FindsLeast r? (b :: ds)) (hba : b ≤ a) : FindsLeast r? (a :: b :: ds) where
  none hr := absurd (h.none hr) (by simp)
  some r hr := by
    obtain ⟨hle, e, he, her⟩ := h.some r hr
    refine ⟨List.forall_mem_cons.2 ⟨?_, hle⟩, e, List.mem_cons_of_mem _ he, her⟩
    exact le_trans (hle b List.mem_cons_self) hba

theorem insert (h : FindsLeast r? (a :: ds)) (hab : a ≤ b) : FindsLeast r? (a :: b :: ds) where
  none hr := absurd (h.none hr) (by simp)
  some r hr := by
    obtain ⟨hle, e, he, her⟩ := h.some r hr
    obtain ⟨ha, hds⟩ := List.forall_mem_cons.1 hle
    refine ⟨List.forall_mem_cons.2 ⟨ha, List.forall_mem_cons.2 ⟨le_trans ha hab, hds⟩⟩, e, ?_, her⟩
    rcases List.mem_cons.1 he with rfl | he
    · exact List.mem_cons_self
    · exact List.mem_cons_of_mem _ (List.mem_cons_of_mem _ he)

end FindsLeast

/-! ## distances of two texts -/

theorem EditDistance.normalized_nonneg {a b : Text} (h : (normalized a b : α) ≤ normalized a b) :
    (ofNat 0 : α) ≤ normalized a b := by
  unfold normalized at h ⊢
  dsimp only at h ⊢
  split
  · exact ofNat_le_self 0
  · next hlonger =>
    rw [if_neg hlonger] at h
    exact div_nonneg (zero_le_ofNat _) (zero_lt_ofNat (Nat.pos_of_ne_zero hlonger)) h

namespace Matcher

variable {m m' : Matcher α} {term word lower : Text} {words : List Text} {fuzzy fuzzy' : Bool}

theorem valid_ofThreshold {t : α} (h₀ : ofNat 0 ≤ t) (h₁ : t ≤ ofNat 1) : (ofThreshold t).Valid := by
  have ht : (ofThreshold t).threshold = t := clampUnit_eq_self h₀ h₁
  exact ⟨by rw [ht]; exact h₀, by rw [ht]; exact h₁⟩

theorem containment_nonneg {k n : Nat} (hn : 0 < n) (hle : k ≤ n)
    (h : (containmentPenalty * (ofNat 1 - ofNat k / ofNat n) : α) ≤ containmentPenalty * (ofNat 1 - ofNat k / ofNat n)) :
    (ofNat 0 : α) ≤ containmentPenalty * (ofNat 1 - ofNat k / ofNat n) := by
  obtain ⟨hpenalty, hrest⟩ := le_self_of_mul h
  have hshare : (ofNat k / ofNat n : α) ≤ ofNat k / ofNat n := le_self_of_sub hrest
  have hshare₀ : (ofNat 0 : α) ≤ ofNat k / ofNat n := div_nonneg (zero_le_ofNat k) (zero_lt_ofNat hn) hshare
  have hshare₁ : (ofNat k / ofNat n : α) ≤ ofNat 1 := div_le_one (zero_le_ofNat k) (ofNat_le_ofNat hle) hshare
  have hpenalty₀ : (ofNat 0 : α) ≤ containmentPenalty := div_nonneg (zero_le_ofNat 1) (zero_lt_ofNat (by decide)) hpenalty
  exact mul_nonneg hpenalty₀ (sub_nonneg hshare₀ hshare₁ isFinite_one) h

omit [LawfulArithmetic α] in
theorem accept_eq_some_iff {d e : α} : m.accept d = some e ↔ d ≤ m.threshold ∧ d = e := by
  unfold accept
  split
  · next h => simp [h]
  · next h => simp [h]

omit [LawfulArithmetic α] in
/-- What a distance is: 0 to an equal word; what containment costs, to another word that contains the term; the share of
edits to any other word, if the term may be misspelt and does not differ too much in length. -/
theorem wordDistance?_eq_some_iff {d : α} : m.wordDistance? term word fuzzy = some d ↔
    (term = word ∧ d = ofNat 0) ∨
    (term ≠ word ∧ term ≠ [] ∧ word ≠ []) ∧ d ≤ m.threshold ∧
      ((term <:+: word ∧ d = containmentPenalty * (ofNat 1 - ofNat term.length / ofNat word.length)) ∨
       (¬ term <:+: word ∧ fuzzy = true ∧ d = EditDistance.normalized term word ∧
        ¬ m.threshold < ofNat (max term.length word.length - min term.length word.length) /
          ofNat (max term.length word.length))) := by
  unfold wordDistance?
  split
  · next heq => simp [heq, eq_comm]
  next heq =>
  split
  · next hempty =>
    have hempty : term = [] ∨ word = [] := by simpa using hempty
    simp only [heq, reduceCtorEq, false_iff]
    tauto
  next hempty =>
  have hempty : term ≠ [] ∧ word ≠ [] := by simpa using hempty
  split
  · next hoccurs =>
    have hoccurs := Text.occursIn_iff.1 hoccurs
    rw [accept_eq_some_iff]
    constructor
    · rintro ⟨hle, rfl⟩
      exact .inr ⟨⟨heq, hempty⟩, hle, .inl ⟨hoccurs, rfl⟩⟩
    · rintro (⟨h, -⟩ | ⟨-, hle, ⟨-, rfl⟩ | ⟨h, -⟩⟩)
      · exact absurd h heq
      · exact ⟨hle, rfl⟩
      · exact absurd hoccurs h
  next hoccurs =>
  have hoccurs : ¬ term <:+: word := fun h => hoccurs (Text.occursIn_iff.2 h)
  split
  · next hfuzzy =>
    have hfuzzy : fuzzy = false := by simpa using hfuzzy
    simp [heq, hoccurs, hfuzzy]
  next hfuzzy =>
  have hfuzzy : fuzzy = true := by simpa using hfuzzy
  dsimp only
  split
  · next hbound => simp [heq, hoccurs, hbound]
  · next hbound =>
    rw [accept_eq_some_iff]
    constructor
    · rintro ⟨hle, rfl⟩
      exact .inr ⟨⟨heq, hempty⟩, hle, .inr ⟨hoccurs, hfuzzy, rfl, hbound⟩⟩
    · rintro (⟨h, -⟩ | ⟨-, hle, ⟨h, -⟩ | ⟨-, -, rfl, -⟩⟩)
      · exact absurd h heq
      · exact absurd h hoccurs
      · exact ⟨hle, rfl⟩

theorem wordDistance?_bounds (hm : m.Valid) {d : α} (h : m.wordDistance? term word fuzzy = some d) :
    ofNat 0 ≤ d ∧ d ≤ m.threshold := by
  obtain ⟨-, rfl⟩ | ⟨⟨-, -, hword⟩, hle, ⟨hoccurs, rfl⟩ | ⟨-, -, rfl, -⟩⟩ := wordDistance?_eq_some_iff.1 h
  · exact ⟨ofNat_le_self 0, hm.nonneg⟩
  · exact ⟨containment_nonneg (List.length_pos_iff.2 hword) hoccurs.length_le (le_self_left hle), hle⟩
  · exact ⟨EditDistance.normalized_nonneg (le_self_left hle), hle⟩

theorem wordDistance?_of_le (hm : m.threshold ≤ m'.threshold) (hfuzzy : fuzzy = true → fuzzy' = true) {d : α}
    (h : m.wordDistance? term word fuzzy = some d) : m'.wordDistance? term word fuzzy' = some d := by
  rw [wordDistance?_eq_some_iff] at h ⊢
  obtain heq | ⟨hne, hle, hcontains | ⟨hoccurs, hspelling, hd, hbound⟩⟩ := h
  · exact .inl heq
  · exact .inr ⟨hne, le_trans hle hm, .inl hcontains⟩
  · exact .inr ⟨hne, le_trans hle hm, .inr ⟨hoccurs, hfuzzy hspelling, hd, fun hlt => hbound (lt_of_le_of_lt hm hlt)⟩⟩

/-! ## the nearest word -/

theorem nonneg_of_mem_distances (hm : m.Valid) : ∀ d ∈ m.distances term fuzzy words, ofNat 0 ≤ d := by
  intro d hd
  obtain ⟨word, -, hword⟩ := List.mem_filterMap.1 hd
  exact (wordDistance?_bounds hm hword).1

/-- The word that is found after another one is at the least distance of all, and there is one if any word matches. The
induction is on the words that are left, `best?` being the nearest one so far. -/
theorem closestWordAfter?_spec (hm : m.Valid) (best? : Option (Text × α)) (hbest : ∀ b ∈ best?, ofNat 0 ≤ b.2) :
    FindsLeast (m.closestWordAfter? term fuzzy best? words)
      ((best?.map (·.2)).toList ++ m.distances term fuzzy words) := by
  induction words generalizing best? with
  | nil =>
    rw [closestWordAfter?]
    refine ⟨?_, ?_⟩
    · rintro rfl
      rfl
    · rintro b rfl
      have hb : b.2 ≤ b.2 := le_self_right (hbest b rfl)
      exact ⟨by simpa [distances] using hb, b.2, by simp, hb⟩
  | cons word words ih =>
    rw [closestWordAfter?]
    cases hword : m.wordDistance? term word fuzzy with
    | none =>
      have hdistances : m.distances term fuzzy (word :: words) = m.distances term fuzzy words :=
        List.filterMap_cons_none hword
      rw [hdistances]
      exact ih best? hbest
    | some d =>
      have hd : ofNat 0 ≤ d := (wordDistance?_bounds hm hword).1
      have hdistances : m.distances term fuzzy (word :: words) = d :: m.distances term fuzzy words :=
        List.filterMap_cons_some hword
      rw [hdistances]
      dsimp only
      by_cases hzero : (d == ofNat 0) = true
      · -- nothing is nearer than 0
        rw [if_pos hzero]
        refine ⟨by simp, ?_⟩
        rintro r hr
        rw [← Option.some.inj hr]
        refine ⟨fun e he => ?_, d, by simp, (beq_iff.1 hzero).1⟩
        rcases List.mem_append.1 he with he | he
        · obtain ⟨b, hb, rfl⟩ := Option.map_eq_some_iff.1 (Option.mem_toList.1 he)
          exact hbest b hb
        · rw [← hdistances] at he
          exact nonneg_of_mem_distances hm e he
      · rw [if_neg hzero]
        have hnew := ih (some (word, d)) (by simpa using hd)
        cases best? with
        | none => exact hnew
        | some b =>
          have hb : ofNat 0 ≤ b.2 := hbest b rfl
          by_cases hlt : d < b.2
          · rw [if_pos (by simpa using hlt)]
            exact hnew.cons (le_of_lt hlt)
          · rw [if_neg (by simpa using hlt)]
            exact (ih (some b) hbest).insert (le_of_not_lt (le_self_right hd) (le_self_right hb) hlt)

theorem closestWord?_spec (hm : m.Valid) :
    FindsLeast (m.closestWord? term words fuzzy) (m.distances term fuzzy words) :=
  closestWordAfter?_spec hm none (by simp)

/-- A matcher that tolerates more finds a word that is at least as near. -/
theorem closestWord?_of_le (hm : m.Valid) (hm' : m'.Valid) (hle : m.threshold ≤ m'.threshold)
    (hfuzzy : fuzzy = true → fuzzy' = true) {r : Text × α} (h : m.closestWord? term words fuzzy = some r) :
    ∃ r', m'.closestWord? term words fuzzy' = some r' ∧ r'.2 ≤ r.2 := by
  obtain ⟨d, hd, hdr⟩ := ((closestWord?_spec hm).some r h).attained
  obtain ⟨word, hmem, hword⟩ := List.mem_filterMap.1 hd
  have hd' : d ∈ m'.distances term fuzzy' words :=
    List.mem_filterMap.2 ⟨word, hmem, wordDistance?_of_le hle hfuzzy hword⟩
  have hspec : FindsLeast (m'.closestWord? term words fuzzy') (m'.distances term fuzzy' words) := closestWord?_spec hm'
  cases hr' : m'.closestWord? term words fuzzy' with
  | none =>
    rw [hspec.none hr'] at hd'
    exact absurd hd' List.not_mem_nil
  | some r' => exact ⟨r', rfl, le_trans ((hspec.some r' hr').le d hd') hdr⟩

/-! ## fields -/

theorem fieldDistance?_bounds (hm : m.Valid) {d : α} (h : m.fieldDistance? term lower words fuzzy = some d) :
    ofNat 0 ≤ d ∧ d ≤ m.threshold := by
  unfold fieldDistance? at h
  split at h
  · exact absurd h (by simp)
  split at h
  · rw [← Option.some.inj h]
    exact ⟨ofNat_le_self 0, hm.nonneg⟩
  · obtain ⟨r, hr, rfl⟩ := Option.map_eq_some_iff.1 h
    have hleast := (closestWord?_spec hm).some r hr
    obtain ⟨e, he, her⟩ := hleast.attained
    obtain ⟨word, -, hword⟩ := List.mem_filterMap.1 he
    obtain ⟨he₀, he₁⟩ := wordDistance?_bounds hm hword
    exact ⟨le_trans he₀ her, le_trans (hleast.le e he) he₁⟩

theorem fieldDistance?_of_le (hm : m.Valid) (hm' : m'.Valid) (hle : m.threshold ≤ m'.threshold)
    (hfuzzy : fuzzy = true → fuzzy' = true) {d : α} (h : m.fieldDistance? term lower words fuzzy = some d) :
    ∃ d', m'.fieldDistance? term lower words fuzzy' = some d' ∧ d' ≤ d := by
  have hd : d ≤ d := le_self_left (fieldDistance?_bounds hm h).2
  unfold fieldDistance? at h ⊢
  split at h
  · exact absurd h (by simp)
  next hterm =>
  rw [if_neg hterm]
  split at h
  · next hpart =>
    rw [if_pos hpart]
    exact ⟨d, h, hd⟩
  next hpart =>
  rw [if_neg hpart]
  obtain ⟨r, hr, rfl⟩ := Option.map_eq_some_iff.1 h
  obtain ⟨r', hr', hle'⟩ := closestWord?_of_le hm hm' hle hfuzzy hr
  exact ⟨r'.2, by rw [hr']; rfl, hle'⟩

omit [LawfulArithmetic α] in
theorem matchQuality?_eq_some_iff {v : α} : m.matchQuality? term lower words fuzzy = some v ↔
    ∃ d, m.fieldDistance? term lower words fuzzy = some d ∧ v = ofNat 1 - d ∧ ofNat 0 < v := by
  rw [matchQuality?, Option.filter_eq_some_iff, Option.map_eq_some_iff, decide_eq_true_iff]
  constructor
  · rintro ⟨⟨d, hd, rfl⟩, hpos⟩
    exact ⟨d, hd, rfl, hpos⟩
  · rintro ⟨d, hd, rfl, hpos⟩
    exact ⟨⟨d, hd, rfl⟩, hpos⟩

theorem matchQuality?_of_le (hm : m.Valid) (hm' : m'.Valid) (hle : m.threshold ≤ m'.threshold)
    (hfuzzy : fuzzy = true → fuzzy' = true) {v : α} (h : m.matchQuality? term lower words fuzzy = some v) :
    ∃ v', m'.matchQuality? term lower words fuzzy' = some v' ∧ v ≤ v' := by
  obtain ⟨d, hd, rfl, hpos⟩ := matchQuality?_eq_some_iff.1 h
  obtain ⟨d', hd', hdd⟩ := fieldDistance?_of_le hm hm' hle hfuzzy hd
  have hd₁ : d ≤ ofNat 1 := le_trans (fieldDistance?_bounds hm hd).2 hm.le_one
  have hquality : ofNat 1 - d ≤ ofNat 1 - d' := sub_le_sub (fieldDistance?_bounds hm' hd').1 hdd hd₁ isFinite_one
  exact ⟨ofNat 1 - d', matchQuality?_eq_some_iff.2 ⟨d', hd', rfl, lt_of_lt_of_le hpos hquality⟩, hquality⟩

end Matcher
end ContentSearch
