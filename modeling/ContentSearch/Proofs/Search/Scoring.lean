import ContentSearch.Proofs.Config.Validation
import ContentSearch.Proofs.Number.Laws
import ContentSearch.Proofs.Search.Totality
import ContentSearch.Proofs.Text.Occurrence
import Mathlib.Algebra.Order.BigOperators.Group.List
import Mathlib.Tactic.Linarith

/-!
# Which items score

Over exact rationals an item has a score exactly if the query finds something in it: every amount that adds to the total
is a positive weight or a share of one (`amounts_pos`), so that the total is positive as soon as there is an amount
(`total_pos_iff`), and neither the division nor the clamping makes it vanish (`value?_isSome_iff_total`).

`Finds` says what is found: a term matches a field, or a phrase occurs in one.
-/

namespace ContentSearch

/-! ## exact rationals -/

theorem foldl_add_eq_add_sum (a : Rat) (l : List Rat) : l.foldl (· + ·) a = a + l.sum := by
  induction l generalizing a with
  | nil => simp
  | cons b l ih => rw [List.foldl_cons, ih, List.sum_cons, add_assoc]

/-! ## qualities -/

namespace Matcher

variable {α : Type} [Scalar α]

theorem matchQuality?_pos {m : Matcher α} {term lower : Text} {words : List Text} {fuzzy : Bool} {v : α}
    (h : m.matchQuality? term lower words fuzzy = some v) : Scalar.ofNat 0 < v := by
  obtain ⟨-, hv⟩ := Option.filter_eq_some_iff.1 h
  exact of_decide_eq_true hv

theorem matchQuality?_nil (m : Matcher α) (term : Text) (fuzzy : Bool) : m.matchQuality? term [] [] fuzzy = none := by
  have hdistance : m.fieldDistance? term [] [] fuzzy = none := by
    unfold fieldDistance?
    cases term with
    | nil => rfl
    | cons c t => simp [Text.occursIn, closestWord?, closestWordAfter?]
  rw [matchQuality?, hdistance]
  rfl

end Matcher

namespace Scorer

/-! ## what is found -/

section Hits

variable {α : Type} [Scalar α] {s : Scorer α}

theorem found_hits_iff {spec : ScoredField α} {f : IndexedField} :
    (s.hits spec f).found = true ↔ f.text ≠ [] ∧
      ((∃ t ∈ s.query.terms, (s.matcher.matchQuality? t f.lower f.words spec.fuzzy).isSome) ∨
        ∃ t ∈ s.query.phrases, t <:+: f.lower) := by
  unfold hits
  by_cases hf : f.isEmpty = true
  · have htext : f.text = [] := by simpa [IndexedField.isEmpty] using hf
    rw [if_pos hf]
    simp [FieldHits.found, htext]
  · have htext : f.text ≠ [] := by simpa [IndexedField.isEmpty] using hf
    rw [if_neg hf]
    simp [FieldHits.found, htext, IndexedField.mentions, Text.occursIn_iff, Option.isSome_iff_exists,
      Option.eq_none_iff_forall_ne_some]

theorem matchQuality?_of_mem_terms {spec : ScoredField α} {f : IndexedField} {t : Text × α}
    (ht : t ∈ (s.hits spec f).terms) : s.matcher.matchQuality? t.1 f.lower f.words spec.fuzzy = some t.2 := by
  unfold hits at ht
  split at ht
  · exact absurd ht List.not_mem_nil
  · obtain ⟨term, -, hterm⟩ := List.mem_filterMap.1 ht
    obtain ⟨v, hv, rfl⟩ := Option.map_eq_some_iff.1 hterm
    exact hv

theorem pos_of_mem_terms {spec : ScoredField α} {f : IndexedField} {t : Text × α} (ht : t ∈ (s.hits spec f).terms) :
    Scalar.ofNat 0 < t.2 := Matcher.matchQuality?_pos (matchQuality?_of_mem_terms ht)

theorem value?_eq_some_iff {e : IndexedItem} {v : α} : s.value? e = some v ↔
    ¬ s.total e ≤ Scalar.ofNat 0 ∧ ¬ s.denominator ≤ Scalar.ofNat 0 ∧ v = Scalar.clampUnit (s.total e / s.denominator) ∧
      Scalar.isFinite v = true ∧ ¬ v ≤ Scalar.ofNat 0 := by
  unfold value?
  dsimp only
  split
  · next h =>
    simp only [Bool.or_eq_true, decide_eq_true_eq] at h
    simp only [reduceCtorEq, false_iff]
    tauto
  next h =>
  simp only [Bool.or_eq_true, decide_eq_true_eq, not_or] at h
  split
  · next hscore =>
    simp only [Bool.and_eq_true, Bool.not_eq_true', decide_eq_false_iff_not] at hscore
    constructor
    · intro hv
      rw [← Option.some.inj hv]
      exact ⟨h.1, h.2, rfl, hscore⟩
    · rintro ⟨-, -, rfl, -⟩
      rfl
  · next hscore =>
    simp only [Bool.and_eq_true, Bool.not_eq_true', decide_eq_false_iff_not] at hscore
    simp only [reduceCtorEq, false_iff]
    rintro ⟨-, -, rfl, hfinite, hpos⟩
    exact hscore ⟨hfinite, hpos⟩

end Hits

/-! ## scores -/

/-- All weights are positive numbers, and so is what a perfect match adds up to. -/
structure Positive (s : Scorer Rat) : Prop where
  weights : ∀ f ∈ s.fields, 0 < f.weight
  denominator : 0 < s.denominator

variable {s : Scorer Rat}

theorem amounts_pos {spec : ScoredField Rat} (hspec : 0 < spec.weight) (f : IndexedField) :
    ∀ a ∈ (s.hits spec f).amounts spec.weight, 0 < a := by
  intro a ha
  rcases List.mem_append.1 ha with ha | ha
  · obtain ⟨t, ht, rfl⟩ := List.mem_map.1 ha
    exact mul_pos hspec (pos_of_mem_terms ht)
  · obtain ⟨t, -, rfl⟩ := List.mem_map.1 ha
    exact hspec

theorem amounts_ne_nil_iff {α : Type} [Scalar α] {weight : α} {h : FieldHits α} :
    h.amounts weight ≠ [] ↔ h.found = true := by
  simp only [FieldHits.amounts, FieldHits.found, ne_eq, List.append_eq_nil_iff, List.map_eq_nil_iff, Bool.or_eq_true,
    Bool.not_eq_true', List.isEmpty_eq_false_iff]
  tauto

theorem total_eq_sum_amounts (s : Scorer Rat) (e : IndexedItem) :
    s.total e = ((s.fieldHits e).flatMap fun (spec, _, h) => h.amounts spec.weight).sum := by
  rw [total]
  show List.foldl (· + ·) (0 : Rat) _ = _
  rw [foldl_add_eq_add_sum, zero_add]

theorem exists_found_of_amounts {α : Type} [Scalar α] {s : Scorer α} {e : IndexedItem}
    (h : ((s.fieldHits e).flatMap fun (spec, _, h) => h.amounts spec.weight) ≠ []) :
    ∃ x ∈ s.fieldHits e, x.2.2.found = true := by
  by_contra hnone
  refine h (List.flatMap_eq_nil_iff.2 fun x hx => ?_)
  by_contra hne
  exact hnone ⟨x, hx, amounts_ne_nil_iff.1 hne⟩

theorem exists_found_of_value? {α : Type} [Scalar α] [Scalar.LawfulOrder α] {s : Scorer α} {e : IndexedItem} {v : α}
    (h : s.value? e = some v) :
    ∃ x ∈ s.fieldHits e, x.2.2.found = true := by
  obtain ⟨htotal, -⟩ := value?_eq_some_iff.1 h
  refine exists_found_of_amounts fun hnil => htotal ?_
  rw [total, hnil]
  exact Scalar.ofNat_le_self 0

/-- The total is positive as soon as something is found in some field. -/
theorem total_pos_iff (hs : s.Positive) (e : IndexedItem) :
    0 < s.total e ↔ ∃ x ∈ s.fieldHits e, x.2.2.found = true := by
  have hpos : ∀ a ∈ (s.fieldHits e).flatMap fun (spec, _, h) => h.amounts spec.weight, 0 < a := by
    intro a ha
    obtain ⟨⟨spec, f, h⟩, hx, ha⟩ := List.mem_flatMap.1 ha
    obtain ⟨hzip, rfl⟩ := mem_fieldHits_iff.1 hx
    exact amounts_pos (hs.weights spec (List.of_mem_zip hzip).1) f a ha
  rw [total_eq_sum_amounts]
  -- no amount is negative, so the sum vanishes only if there is no amount at all
  constructor
  · intro h
    refine exists_found_of_amounts fun hnil => ?_
    rw [hnil, List.sum_nil] at h
    exact lt_irrefl _ h
  · rintro ⟨x, hx, hfound⟩
    refine List.sum_pos _ hpos ?_
    intro hnil
    exact amounts_ne_nil_iff.2 hfound (List.flatMap_eq_nil_iff.1 hnil x hx)

theorem value?_isSome_iff_total (hs : s.Positive) (e : IndexedItem) : (s.value? e).isSome ↔ 0 < s.total e := by
  rw [Option.isSome_iff_exists]
  constructor
  · rintro ⟨v, hv⟩
    exact not_le.1 (value?_eq_some_iff.1 hv).1
  · intro h
    have hscore : 0 < Scalar.clampUnit (s.total e / s.denominator) := Scalar.clampUnit_pos (div_pos h hs.denominator)
    exact ⟨_, value?_eq_some_iff.2 ⟨not_le.2 h, not_le.2 hs.denominator, rfl, rfl, not_le.2 hscore⟩⟩

/-! ## entries of items -/

/-- What a query finds in the entry of an item: a term that matches a field, or a phrase that occurs in a field with
text. -/
def Finds {α : Type} [Scalar α] (s : Scorer α) (e : IndexedItem) : Prop :=
  (∃ t ∈ s.query.terms, ∃ spec f, (spec, f) ∈ s.fields.zip e.fields ∧
    (s.matcher.matchQuality? t f.lower f.words spec.fuzzy).isSome) ∨
  ∃ t ∈ s.query.phrases, ∃ spec f, (spec, f) ∈ s.fields.zip e.fields ∧ f.text ≠ [] ∧ t <:+: f.lower

end Scorer

/-- The forms of an attribute belong together. -/
structure IndexedField.Coherent (f : IndexedField) : Prop where
  lower : f.lower = Text.lowercase f.text
  words : f.words = Text.tokens f.text

theorem IndexedField.coherent_ofAttribute {ι : Type} [Searchable ι] (item : ι) (name : Text) :
    (ofAttribute item name).Coherent := by
  unfold ofAttribute
  cases attribute? item name with
  | none =>
    refine ⟨rfl, ?_⟩
    rw [Option.map_none, Option.getD_none, empty, Text.tokens, Text.segmentWords, Text.segments]
    rfl
  | some v => exact ⟨rfl, rfl⟩

theorem IndexedField.lower_ofAttribute {ι : Type} [Searchable ι] {item : ι} {name : Text} {v : FieldValue}
    (h : attribute? item name = some v) : (ofAttribute item name).lower = Text.lowercase v.toText := by
  rw [ofAttribute, h]
  rfl

theorem IndexedField.Coherent.text_ne_nil {f : IndexedField} (hf : f.Coherent) {α : Type} [Scalar α] {m : Matcher α}
    {t : Text} {fuzzy : Bool} (h : (m.matchQuality? t f.lower f.words fuzzy).isSome) : f.text ≠ [] := by
  intro htext
  have hlower : f.lower = [] := by rw [hf.lower, htext]; rfl
  have hwords : f.words = [] := by rw [hf.words, htext, Text.tokens, Text.segmentWords, Text.segments]; rfl
  rw [hlower, hwords, Matcher.matchQuality?_nil] at h
  simp at h

/-- Something is found in an item exactly if something is found in some field. -/
theorem Scorer.exists_found_iff_finds {α : Type} [Scalar α] {s : Scorer α} {e : IndexedItem}
    (he : ∀ f ∈ e.fields, f.Coherent) : (∃ x ∈ s.fieldHits e, x.2.2.found = true) ↔ s.Finds e := by
  constructor
  · rintro ⟨⟨spec, f, h⟩, hx, hfound⟩
    obtain ⟨hzip, rfl⟩ := mem_fieldHits_iff.1 hx
    obtain ⟨htext, ⟨t, ht, hquality⟩ | ⟨t, ht, hoccurs⟩⟩ := found_hits_iff.1 hfound
    · exact .inl ⟨t, ht, spec, f, hzip, hquality⟩
    · exact .inr ⟨t, ht, spec, f, hzip, htext, hoccurs⟩
  · intro hfinds
    have hhits : ∀ spec f, (spec, f) ∈ s.fields.zip e.fields → (s.hits spec f).found = true →
        ∃ x ∈ s.fieldHits e, x.2.2.found = true := fun spec f hzip hfound =>
      ⟨(spec, f, s.hits spec f), mem_fieldHits_iff.2 ⟨hzip, rfl⟩, hfound⟩
    rcases hfinds with ⟨t, ht, spec, f, hzip, hquality⟩ | ⟨t, ht, spec, f, hzip, htext, hoccurs⟩
    · have htext := (he f (List.of_mem_zip hzip).2).text_ne_nil hquality
      exact hhits spec f hzip (found_hits_iff.2 ⟨htext, .inl ⟨t, ht, hquality⟩⟩)
    · exact hhits spec f hzip (found_hits_iff.2 ⟨htext, .inr ⟨t, ht, hoccurs⟩⟩)

/-- **The entry of an item has a score exactly if the query finds something in it.** -/
theorem Scorer.value?_isSome_iff_finds {s : Scorer Rat} (hs : s.Positive) {e : IndexedItem}
    (he : ∀ f ∈ e.fields, f.Coherent) : (s.value? e).isSome ↔ s.Finds e := by
  rw [value?_isSome_iff_total hs, total_pos_iff hs, exists_found_iff_finds he]

/-! ## accepted configurations -/

theorem Config.weightOf_eq_sum (fs : List (ScoredField Rat)) : weightOf fs = (fs.map (·.weight)).sum := by
  show List.foldl (· + ·) (0 : Rat) _ = _
  rw [foldl_add_eq_add_sum, zero_add]

theorem Config.weightOf_pos {fs : List (ScoredField Rat)} (hne : fs ≠ []) (h : ∀ f ∈ fs, f.Valid) :
    0 < weightOf fs := by
  rw [weightOf_eq_sum]
  refine List.sum_pos _ ?_ (by simpa using hne)
  intro a ha
  obtain ⟨f, hf, rfl⟩ := List.mem_map.1 ha
  simpa using (h f hf).positive

theorem Scorer.positive_ofQuery [PatternCompiler] {x : Index Rat} (hne : x.fields ≠ []) (h : ∀ f ∈ x.fields, f.Valid)
    (q : Query) (c : Config Rat) : (ofQuery x q c).Positive where
  weights f hf := by simpa using (h f hf).positive
  denominator := by
    have hcount : (0 : Rat) < ((max q.componentCount 1 : Nat) : Rat) := Nat.cast_pos.2 (by omega)
    exact mul_pos (Config.weightOf_pos hne h) hcount

end ContentSearch
