import ContentSearch.Proofs.Number.Sums
import ContentSearch.Proofs.Search.Tolerance

/-!
# Scores that get lost

In single precision a score may come to 0 although something is found: if what a perfect match adds up to is infinite, no item
has a score, and if an item has much less than that, rounding leaves nothing of the quotient.

* `Matcher.exists_quality`: the quality of a match is at least `2 ^ -24`;
* `Scorer.value?_isSome_iff_lt`: when an item has a score;
* `Index.isNumber_denominator`, `Index.roundedPerfect_le`: what a perfect match adds up to;
* `Scorer.le_total`, `Scorer.lt_div_of_le`: the total of an item in which something is found, and when it does not get lost;
* `found_unless_overflow`: so it depends on the weights which items are found; and there are weights that are accepted, but
  with which nothing is found (`weights_overflow`).
-/

namespace ContentSearch

open Scalar (isFinite ofNat)
open Scalar.LawfulOrder (lt_iff)
open Single

/-! ## when an item has a score -/

namespace Scorer

variable {s : Scorer Float32} {e : IndexedItem} {x y : ℚ}

/-- An item has a score exactly if the denominator is finite and the quotient is not rounded to 0. -/
theorem value?_isSome_iff_lt (htotal : IsNumber (s.total e) x) (hdenominator : IsNumber s.denominator y) (hy : 0 < y) :
    (s.value? e).isSome ↔ y < 2 ^ 128 ∧ 2 ^ (-150 : ℤ) < x / y := by
  have hquotient (hmax : y < 2 ^ 128) : ofNat 0 < s.total e / s.denominator ↔ 2 ^ (-150 : ℤ) < x / y := by
    rcases htotal.le_max.lt_or_eq with hx | hx
    · have hnumber := htotal.div hdenominator hx hy hmax
      rw [← rounded_pos_iff, zero_lt_iff]
      constructor
      · rintro ⟨z, hz, hpos⟩
        rwa [← hnumber.toRat_eq, hz.toRat_eq]
      · exact fun hpos => ⟨_, hnumber, hpos⟩
    · refine iff_of_true (zero_lt_iff.2 ⟨_, htotal.max_div hx hdenominator hy hmax, by positivity⟩) ?_
      have hone : 1 < x / y := (one_lt_div hy).2 (hx ▸ hmax)
      exact lt_trans (by norm_num) hone
  have hzero : ofNat 0 ≤ s.total e := zero_le_iff.2 ⟨x, htotal⟩
  have hpos : ofNat 0 < s.denominator := zero_lt_iff.2 ⟨y, hdenominator, hy⟩
  rw [Option.isSome_iff_exists]
  constructor
  · rintro ⟨v, hv⟩
    obtain ⟨-, -, rfl, hfinite, hscore⟩ := value?_eq_some_iff.1 hv
    have hquotient₀ := Scalar.pos_of_clampUnit hfinite hscore
    have hmax : y < 2 ^ 128 := hdenominator.isFinite_iff.1
      (Scalar.LawfulArithmetic.isFinite_of_div_pos hzero (Scalar.le_of_lt hpos) hquotient₀)
    exact ⟨hmax, (hquotient hmax).1 hquotient₀⟩
  · rintro ⟨hmax, hlt⟩
    have hquotient₀ := (hquotient hmax).2 hlt
    have hx : 0 < x := by
      by_contra hnonpos
      have hle : x / y ≤ 0 := div_nonpos_of_nonpos_of_nonneg (not_lt.1 hnonpos) hy.le
      exact absurd (hle.trans_lt (two_zpow_pos (-150))) (not_lt.2 hlt.le)
    have htotal₀ : ofNat 0 < s.total e := zero_lt_iff.2 ⟨x, htotal, hx⟩
    exact ⟨_, value?_eq_some_iff.2 ⟨(lt_iff.1 htotal₀).2, (lt_iff.1 hpos).2, rfl, Scalar.isFinite_clampUnit
      (Scalar.le_of_lt hquotient₀), (lt_iff.1 (Scalar.clampUnit_pos hquotient₀)).2⟩⟩

end Scorer

/-! ## what a perfect match adds up to -/

namespace Index

variable {x : Index Float32} {q : Query}

def weights (x : Index Float32) : List ℚ := x.fields.map fun f => toRat f.weight

/-- What a perfect match of a query in all scored fields adds up to. -/
def perfect (x : Index Float32) (q : Query) : ℚ := x.weights.sum * (max q.componentCount 1 : ℕ)

/-- What it adds up to if the sum is rounded after each weight, and so is the product. -/
def roundedPerfect (x : Index Float32) (q : Query) : ℚ :=
  rounded (summed 0 x.weights * rounded (max q.componentCount 1 : ℕ))

theorem isNumber_weights (hvalid : ∀ f ∈ x.fields, f.Valid) :
    List.Forall₂ IsNumber (x.fields.map (·.weight)) x.weights := by
  refine List.forall₂_map_left_iff.2 (List.forall₂_map_right_iff.2 (List.forall₂_same.2 fun f hf => ?_))
  exact isNumber_toRat (Scalar.le_of_lt (Scorer.pos_of_valid (hvalid f hf)))

theorem summed_weights_pos (hne : x.fields ≠ []) (hvalid : ∀ f ∈ x.fields, f.Valid) : 0 < summed 0 x.weights := by
  obtain ⟨f, hf⟩ := List.exists_mem_of_ne_nil _ hne
  obtain ⟨y, hy, hpos⟩ := zero_lt_iff.1 (Scorer.pos_of_valid (hvalid f hf))
  rw [← hy.toRat_eq] at hpos
  exact hpos.trans_le ((le_summed isNumber_emptySum (isNumber_weights hvalid)).2 _ (List.mem_map_of_mem hf))

/-- The denominator of the scores is what a perfect match adds up to, rounded after each step. -/
theorem isNumber_denominator [PatternCompiler] (c : Config Float32) (hne : x.fields ≠ []) (hvalid : ∀ f ∈ x.fields, f.Valid)
    (hcount : q.componentCount < wordSize) :
    IsNumber (Scorer.ofQuery x q c).denominator (x.roundedPerfect q) ∧ 0 < x.roundedPerfect q := by
  have hsum : IsNumber x.totalWeight (summed 0 x.weights) := isNumber_sum (isNumber_weights hvalid)
  have hsum₀ : 0 < summed 0 x.weights := summed_weights_pos hne hvalid
  have hone : 1 ≤ rounded (max q.componentCount 1 : ℕ) := one_le_rounded (le_max_right _ _)
  have hfinite : rounded (max q.componentCount 1 : ℕ) < 2 ^ 128 :=
    (isNumber_ofNat _).isFinite_iff.1 (isFinite_ofNat (max_lt hcount (by decide)))
  have hle : summed 0 x.weights ≤ summed 0 x.weights * rounded (max q.componentCount 1 : ℕ) :=
    le_mul_of_one_le_right hsum₀.le hone
  unfold roundedPerfect
  constructor
  · rcases hsum.le_max.lt_or_eq with hmax | hmax
    · exact hsum.mul (isNumber_ofNat _) hmax hfinite
    · rw [rounded_of_max_le (hmax ▸ hle)]
      exact hsum.max_mul hmax (isNumber_ofNat _) (one_pos.trans_le hone)
  · rw [← hsum.rounded_eq] at hsum₀
    exact hsum₀.trans_le (rounded_le_rounded hle)

/-- Rounding makes it four times as much at most: twice by the sum, and twice by the number of terms and phrases. -/
theorem roundedPerfect_le (hvalid : ∀ f ∈ x.fields, f.Valid) {k : ℤ} (hk : -128 ≤ k) (hk' : k ≤ 126)
    (h : x.perfect q ≤ 2 ^ k) : x.roundedPerfect q ≤ 2 ^ (k + 2) := by
  unfold perfect at h
  unfold roundedPerfect
  generalize max q.componentCount 1 = n at h ⊢
  have hsum : summed 0 x.weights ≤ 2 * x.weights.sum := by
    simpa using summed_le isNumber_emptySum (isNumber_weights hvalid)
  have hsum₀ : 0 ≤ 2 * x.weights.sum := (isNumber_sum (isNumber_weights hvalid)).nonneg.trans hsum
  rw [← rounded_two_zpow (by omega : -126 ≤ k + 2) (by omega)]
  refine rounded_le_rounded ?_
  calc summed 0 x.weights * rounded n ≤ 2 * x.weights.sum * (2 * n) :=
        mul_le_mul hsum (rounded_le_two_mul (Nat.cast_nonneg n)) (isNumber_ofNat n).nonneg hsum₀
    _ = x.weights.sum * n * 2 ^ (2 : ℤ) := by
        norm_num
        ring
    _ ≤ 2 ^ k * 2 ^ (2 : ℤ) := mul_le_mul_of_nonneg_right h (two_zpow_pos 2).le
    _ = 2 ^ (k + 2) := (two_zpow_add k 2).symm

theorem roundedPerfect_lt (hvalid : ∀ f ∈ x.fields, f.Valid) {k : ℤ} (hk : -128 ≤ k) (hk' : k ≤ 125)
    (h : x.perfect q ≤ 2 ^ k) : x.roundedPerfect q < 2 ^ 128 := by
  calc x.roundedPerfect q ≤ 2 ^ (k + 2) := roundedPerfect_le hvalid hk (by omega) h
    _ ≤ 2 ^ (127 : ℤ) := two_zpow_le_two_zpow (by omega)
    _ < 2 ^ 128 := by norm_num

end Index

/-! ## the total of an item -/

/-- The quality of a match is at least `2 ^ -24`, for a distance below 1 lies so much below it. -/
theorem Matcher.exists_quality {m : Matcher Float32} (hm : m.Valid) {term lower : Text} {words : List Text} {fuzzy : Bool}
    {v : Float32} (h : m.matchQuality? term lower words fuzzy = some v) : ∃ z, IsNumber v z ∧ 2 ^ (-24 : ℤ) ≤ z ∧ z ≤ 1 := by
  obtain ⟨d, hd, rfl, hpos⟩ := matchQuality?_eq_some_iff.1 h
  obtain ⟨hd₀, hd₁⟩ := fieldDistance?_bounds hm hd
  obtain ⟨y, hy⟩ := zero_le_iff.1 hd₀
  have hle : y ≤ 1 := by
    obtain ⟨z, hz, hyz⟩ := hy.exists_of_le (Scalar.LawfulOrder.le_trans hd₁ hm.le_one)
    rwa [← hz.toRat_eq, isNumber_one.toRat_eq] at hyz
  have hquality := hy.sub isNumber_one hle (by norm_num)
  have hlt : y < 1 := by
    refine hle.lt_of_ne fun heq => ?_
    obtain ⟨z, hz, hz₀⟩ := zero_lt_iff.1 hpos
    rw [← hz.toRat_eq, hquality.toRat_eq, heq, sub_self, rounded_zero] at hz₀
    exact lt_irrefl _ hz₀
  refine ⟨_, hquality, ?_, ?_⟩
  · rw [← rounded_two_zpow (by omega : -126 ≤ (-24 : ℤ)) (by omega)]
    exact rounded_le_rounded (by linarith [hy.le_one_sub hlt])
  · exact (rounded_le_rounded (by linarith [hy.nonneg])).trans_eq isNumber_one.rounded_eq

namespace Scorer

variable {s : Scorer Float32} {e : IndexedItem} {k : ℤ}

/-- What a hit in a field adds to the total, by the weight of the field. -/
theorem le_amounts (hm : s.matcher.Valid) {spec : ScoredField Float32} (hspec : spec.Valid) (hk : -102 ≤ k) (hk' : k ≤ 128)
    (hweight : 2 ^ k ≤ toRat spec.weight) (f : IndexedField) :
    ∀ a ∈ (s.hits spec f).amounts spec.weight, 2 ^ (k - 24) ≤ toRat a := by
  have hnumber : IsNumber spec.weight (toRat spec.weight) := isNumber_toRat (Scalar.le_of_lt (pos_of_valid hspec))
  have hmax : toRat spec.weight < 2 ^ 128 := hnumber.isFinite_iff.1 hspec.finite
  intro a ha
  rcases List.mem_append.1 ha with ha | ha
  · obtain ⟨t, ht, rfl⟩ := List.mem_map.1 ha
    obtain ⟨z, hz, hle, hone⟩ := Matcher.exists_quality hm (matchQuality?_of_mem_terms ht)
    rw [(hnumber.mul hz hmax (hone.trans_lt (by norm_num))).toRat_eq,
      ← rounded_two_zpow (by omega : -126 ≤ k - 24) (by omega), sub_eq_add_neg, two_zpow_add]
    exact rounded_le_rounded (mul_le_mul hweight hle (two_zpow_pos _).le hnumber.nonneg)
  · obtain ⟨t, -, rfl⟩ := List.mem_map.1 ha
    exact (two_zpow_le_two_zpow (by omega)).trans hweight

/-- What adds to the total of an item. -/
def summands (s : Scorer Float32) (e : IndexedItem) : List Float32 :=
  (s.fieldHits e).flatMap fun (spec, _, h) => h.amounts spec.weight

theorem isNumber_summands (hvalid : ∀ f ∈ s.fields, f.Valid) (e : IndexedItem) :
    List.Forall₂ IsNumber (s.summands e) ((s.summands e).map toRat) :=
  List.forall₂_map_right_iff.2 (List.forall₂_same.2 fun a ha => isNumber_toRat (total_nonneg hvalid e a ha))

theorem isNumber_total (hvalid : ∀ f ∈ s.fields, f.Valid) (e : IndexedItem) :
    IsNumber (s.total e) (summed 0 ((s.summands e).map toRat)) :=
  isNumber_foldl_add isNumber_zero (isNumber_summands hvalid e)

/-- The total of an item in which something is found. -/
theorem le_total (hm : s.matcher.Valid) (hvalid : ∀ f ∈ s.fields, f.Valid) (hk : -102 ≤ k) (hk' : k ≤ 128)
    (hweights : ∀ f ∈ s.fields, 2 ^ k ≤ toRat f.weight) (hfound : ∃ y ∈ s.fieldHits e, y.2.2.found = true) :
    2 ^ (k - 24) ≤ toRat (s.total e) := by
  obtain ⟨⟨spec, f, h⟩, hy, hfound⟩ := hfound
  obtain ⟨hzip, rfl⟩ := mem_fieldHits_iff.1 hy
  have hspec := (List.of_mem_zip hzip).1
  obtain ⟨a, ha⟩ : ∃ a, a ∈ (s.hits spec f).amounts spec.weight :=
    List.exists_mem_of_ne_nil _ (amounts_ne_nil_iff.2 hfound)
  have hmem : a ∈ s.summands e := List.mem_flatMap.2 ⟨_, hy, ha⟩
  rw [(isNumber_total hvalid e).toRat_eq]
  calc (2 : ℚ) ^ (k - 24) ≤ toRat a := le_amounts hm (hvalid spec hspec) hk hk' (hweights spec hspec) f a ha
    _ ≤ summed 0 ((s.summands e).map toRat) :=
      (le_summed isNumber_zero (isNumber_summands hvalid e)).2 _ (List.mem_map_of_mem hmem)

theorem lt_div_of_le {x y : ℚ} (hy : 0 < y) (hle : y ≤ 2 ^ (k + 125)) (hx : 2 ^ (k - 24) ≤ x) : 2 ^ (-150 : ℤ) < x / y := by
  rw [lt_div_iff₀ hy]
  calc 2 ^ (-150 : ℤ) * y ≤ 2 ^ (-150 : ℤ) * 2 ^ (k + 125) := mul_le_mul_of_nonneg_left hle (two_zpow_pos _).le
    _ = 2 ^ (-150 + (k + 125)) := (two_zpow_add ..).symm
    _ < 2 ^ (k - 24) := zpow_lt_zpow_right₀ one_lt_two (by omega)
    _ ≤ x := hx

theorem value?_isSome_iff_finds_lt (hvalid : ∀ f ∈ s.fields, f.Valid) (he : ∀ f ∈ e.fields, f.Coherent) {y : ℚ}
    (hdenominator : IsNumber s.denominator y) (hy : 0 < y) :
    (s.value? e).isSome ↔ s.Finds e ∧ y < 2 ^ 128 ∧ 2 ^ (-150 : ℤ) < toRat (s.total e) / y := by
  have htotal := isNumber_total hvalid e
  rw [htotal.toRat_eq, ← value?_isSome_iff_lt htotal hdenominator hy, ← exists_found_iff_finds he]
  refine (and_iff_right_of_imp fun hscore => ?_).symm
  obtain ⟨v, hv⟩ := Option.isSome_iff_exists.1 hscore
  exact exists_found_of_value? hv

end Scorer

/-! ## what is found -/

/-- **Which items are found in single precision.**  For every collection whose texts fit into memory, every accepted
configuration and every query text with a term or a phrase, the denominator of the scores is finite exactly if what a perfect
match adds up to, rounded after each step, is less than `2 ^ 128`, as it is if this is `2 ^ 125` at most without rounding.
The hits are exactly the items that meet the query and in which it finds something, provided that the denominator is finite
and that the quotient of the total and the denominator is not so small that it is rounded to 0.  So nothing is found once the
denominator is infinite; but nothing is lost if, for some `k` between -102 and 2, all weights are `2 ^ k` at least and a
perfect match adds up to `2 ^ (k + 123)` at most. -/
theorem found_unless_overflow {ι : Type} [PatternCompiler] [Searchable ι] (items : List ι) (c : Config Float32) (t : Text)
    (hc : c.validate = .ok ()) (hq : (Query.parse t).terms ≠ [] ∨ (Query.parse t).phrases ≠ [])
    (hcount : (Query.parse t).componentCount < wordSize)
    (hsize : ∀ item ∈ items, ∀ name v, attribute? item name = some v → v.toText.length < wordSize) :
    ∃ x, Index.build items c = .ok x ∧
      (isFinite (Scorer.ofQuery x (.parse t) c).denominator = true ↔ x.roundedPerfect (.parse t) < 2 ^ 128) ∧
      (x.perfect (.parse t) ≤ 2 ^ 125 → x.roundedPerfect (.parse t) < 2 ^ 128) ∧
      ∃ hits : List (Hit ι Float32),
        (∀ limit, search items x (.parse t) { c with maxResults := limit } = .ok (takeAtMost limit hits)) ∧
        (∀ i, i ∈ hits.map Hit.position ↔ ∃ item, items[i]? = some item ∧ x.Meets (.parse t) (x.entryOf c item) ∧
          (Scorer.ofQuery x (.parse t) c).Finds (x.entryOf c item) ∧ x.roundedPerfect (.parse t) < 2 ^ 128 ∧
          2 ^ (-150 : ℤ) <
            toRat ((Scorer.ofQuery x (.parse t) c).total (x.entryOf c item)) / x.roundedPerfect (.parse t)) ∧
        (2 ^ 128 ≤ x.roundedPerfect (.parse t) → hits = []) ∧
        ∀ k : ℤ, -102 ≤ k → k ≤ 2 → (∀ f ∈ x.fields, 2 ^ k ≤ toRat f.weight) →
          x.perfect (.parse t) ≤ 2 ^ (k + 123) →
          ∀ i, i ∈ hits.map Hit.position ↔ ∃ item, items[i]? = some item ∧ x.Meets (.parse t) (x.entryOf c item) ∧
            (Scorer.ofQuery x (.parse t) c).Finds (x.entryOf c item) := by
  obtain ⟨x, hx, hne, hvalid, hits, hsearch, -, hpositions, -⟩ :=
    exists_search_of_validate items hc (Query.filterOnly_parse hq) hsize
  obtain ⟨hdenominator, hpos⟩ := x.isNumber_denominator c hne hvalid hcount
  have hmatcher : (Matcher.ofThreshold c.fuzzyThreshold).Valid :=
    Matcher.valid_ofThreshold (Config.threshold_of_validate hc).1 (Config.threshold_of_validate hc).2
  have hfound : ∀ i, i ∈ (hits.mergeSort Hit.ranksBefore).map Hit.position ↔ ∃ item, items[i]? = some item ∧
      x.Meets (.parse t) (x.entryOf c item) ∧ (Scorer.ofQuery x (.parse t) c).Finds (x.entryOf c item) ∧
      x.roundedPerfect (.parse t) < 2 ^ 128 ∧
      2 ^ (-150 : ℤ) <
        toRat ((Scorer.ofQuery x (.parse t) c).total (x.entryOf c item)) / x.roundedPerfect (.parse t) := by
    intro i
    rw [((List.mergeSort_perm hits Hit.ranksBefore).map Hit.position).mem_iff, hpositions]
    exact exists_congr fun item => and_congr_right fun _ => and_congr_right fun _ =>
      Scorer.value?_isSome_iff_finds_lt hvalid (x.coherent_entryOf c item) hdenominator hpos
  refine ⟨x, hx, hdenominator.isFinite_iff, Index.roundedPerfect_lt hvalid (by omega) le_rfl,
    hits.mergeSort Hit.ranksBefore, hsearch, hfound, fun hmax => ?_, fun k hk hk' hweights hperfect i => ?_⟩
  · rw [List.eq_nil_iff_forall_not_mem]
    intro h hh
    obtain ⟨-, -, -, -, hlt, -⟩ := (hfound h.position).1 (List.mem_map_of_mem hh)
    exact not_lt.2 hmax hlt
  · have hlt : x.roundedPerfect (.parse t) < 2 ^ 128 := Index.roundedPerfect_lt hvalid (by omega) (by omega) hperfect
    have hle : x.roundedPerfect (.parse t) ≤ 2 ^ (k + 123 + 2) :=
      Index.roundedPerfect_le hvalid (by omega) (by omega) hperfect
    rw [add_assoc] at hle
    rw [hfound]
    refine exists_congr fun item => and_congr_right fun _ => and_congr_right fun _ => and_iff_left_of_imp fun hfinds => ?_
    have htotal : 2 ^ (k - 24) ≤ toRat ((Scorer.ofQuery x (.parse t) c).total (x.entryOf c item)) :=
      Scorer.le_total hmatcher hvalid hk (by omega) hweights
        ((Scorer.exists_found_iff_finds (x.coherent_entryOf c item)).2 hfinds)
    exact ⟨hlt, Scorer.lt_div_of_le hpos hle htotal⟩

/-- The title is found, and the summary is not. -/
theorem found_unless_overflow_titles :
    ∃ x, Index.build [summarized "Rust guide".toList "A book".toList] articles = .ok x ∧ ∃ hits : List (Hit Json Float32),
      search [summarized "Rust guide".toList "A book".toList] x (.parse "guidd".toList)
        { articles with maxResults := none } = .ok hits ∧
      hits.map Hit.position = [0] ∧
      ∀ i, i ∈ hits.map Hit.position ↔ ∃ item, [summarized "Rust guide".toList "A book".toList][i]? = some item ∧
        x.Meets (.parse "guidd".toList) (x.entryOf articles item) ∧
        (Scorer.ofQuery x (.parse "guidd".toList) articles).Finds (x.entryOf articles item) := by
  have hvalid : (articles : Config Float32).validate = .ok () := by decide +kernel
  have hfields : (articles : Config Float32).distinctFields = .ok articles.fields := by decide +kernel
  obtain ⟨x, hx, -, -, hits, hsearch, -, -, hall⟩ :=
    found_unless_overflow [summarized "Rust guide".toList "A book".toList] articles "guidd".toList hvalid
      (by decide +kernel) (by decide +kernel) (length_summarized_lt (by decide) (by decide))
  have hbuilt := Except.ok.inj (hx.symm.trans (Index.build_eq _ hvalid hfields))
  have hfound : hits.map Hit.position = [0] := by
    refine map_eq_of_eq_ok (hsearch none) ?_
    rw [hbuilt]
    decide +kernel
  have hweights : x.weights = [2, 1] := by
    rw [hbuilt]
    decide +kernel
  refine ⟨x, hx, hits, hsearch none, hfound, hall 0 (by omega) (by omega) (fun f hf => ?_) ?_⟩
  · have hmem : toRat f.weight ∈ [2, 1] := hweights ▸ List.mem_map_of_mem hf
    rw [zpow_zero]
    rcases List.mem_pair.1 hmem with h | h <;> norm_num [h]
  · have hcount : max (Query.parse "guidd".toList).componentCount 1 = 1 := by decide +kernel
    rw [Index.perfect, hcount, hweights]
    norm_num

/-- A configuration that searches titles and tags, both with a weight of `3 * 10 ^ 38`. -/
def heavyTitles : Config Float32 :=
  { Config.default with
    fields := [⟨"title".toList, ofNat (3 * 10 ^ 38), true⟩, ⟨"tags".toList, ofNat (3 * 10 ^ 38), true⟩] }

/-- **Two weights are accepted, and nothing is found.**  The title is the term itself, but the sum of the weights is
infinite. -/
theorem weights_overflow :
    heavyTitles.validate = .ok () ∧ ∃ x, Index.build [titled "rust".toList] heavyTitles = .ok x ∧
      x.Meets (.parse "rust".toList) (x.entryOf heavyTitles (titled "rust".toList)) ∧
      (Scorer.ofQuery x (.parse "rust".toList) heavyTitles).Finds (x.entryOf heavyTitles (titled "rust".toList)) ∧
      isFinite (Scorer.ofQuery x (.parse "rust".toList) heavyTitles).denominator = false ∧
      (search [titled "rust".toList] x (.parse "rust".toList) heavyTitles).toOption.map (·.map Hit.position) =
        some [] := by
  have hvalid : heavyTitles.validate = .ok () := by decide +kernel
  have hfields : heavyTitles.distinctFields = .ok heavyTitles.fields := by decide +kernel
  have hfilters : (Query.parse "rust".toList).filters.toList = [] := by decide +kernel
  have hexclusions : (Query.parse "rust".toList).exclusions = [] := by decide +kernel
  have hphrases : (Query.parse "rust".toList).phrases = [] := by decide +kernel
  exact ⟨hvalid, _, Index.build_eq _ hvalid hfields, Index.meets_of_terms _ hfilters hexclusions hphrases _,
    .inl ⟨"rust".toList, by decide +kernel, _, _, .head _, by decide +kernel⟩, by decide +kernel, by decide +kernel⟩

end ContentSearch
