import ContentSearch.Proofs.Match.Nearest
import ContentSearch.Proofs.Match.Symmetry
import Mathlib.Tactic.Linarith

/-!
# Ideal distances

Over exact rationals the distance of a term to a word is 0 to an equal word, what containment costs to a word that contains
the term, and otherwise the least number of edits divided by the longer length.  A matcher takes three short cuts: it does
not count edits where the lengths differ too much, nor where the word contains the term, and it stops at a distance of 0.

* `idealDistance?_eq_min?`: containment never costs more than editing, so that the ideal distance is the least of all costs;
* `idealDistance?_eq_zero_iff`: it is 0 to an equal word only, so that nothing after such a word is as near;
* `closestWord?_eq_nearest?`: so the word that is found is the one that a search without short cuts finds;
* `closestWord?_ideal`: the first of those at the least ideal distance.
-/

namespace ContentSearch

namespace Matcher

/-! ## what a word costs -/

/-- The cost of a word that contains a term: a tenth of the share of its characters that the term leaves over. -/
def containmentCost (term word : Text) : Rat := 1 / 10 * (1 - (term.length : Rat) / word.length)

/-- The cost of a word that a term is corrected to: the least number of edits, divided by the longer length. -/
noncomputable def spellingCost (term word : Text) : Rat :=
  (leastCost term word : Rat) / (max term.length word.length : ℕ)

/-- The distance of a term to a word, which is the cost of the first of the ways to reach it. -/
noncomputable def idealDistance? (fuzzy : Bool) (term word : Text) : Option Rat :=
  if term = word then some 0
  else if term <:+: word then some (containmentCost term word)
  else if fuzzy then some (spellingCost term word)
  else none

/-- The costs of all ways to reach a word from a term. -/
noncomputable def costs (fuzzy : Bool) (term word : Text) : List Rat :=
  (if term = word then [0] else []) ++ (if term <:+: word then [containmentCost term word] else []) ++
    if fuzzy then [spellingCost term word] else []

/-- The distances up to a threshold. -/
def upTo (t : Rat) (distance? : Text → Option Rat) (word : Text) : Option Rat :=
  (distance? word).filter fun d => decide (d ≤ t)

variable {term word : Text} {fuzzy : Bool} {t : Rat}

theorem upTo_eq_some_iff {distance? : Text → Option Rat} {d : Rat} :
    upTo t distance? word = some d ↔ distance? word = some d ∧ d ≤ t := by
  rw [upTo, Option.filter_eq_some_iff, decide_eq_true_iff]

theorem containmentCost_self (hterm : term ≠ []) : containmentCost term term = 0 := by
  have hlength : (term.length : Rat) ≠ 0 := Nat.cast_ne_zero.2 (List.length_pos_iff.2 hterm).ne'
  rw [containmentCost, div_self hlength, sub_self, mul_zero]

theorem spellingCost_self (term : Text) : spellingCost term term = 0 := by
  rw [spellingCost, leastCost_eq_zero_iff.2 rfl, Nat.cast_zero, zero_div]

/-- The edits that insert what the term leaves over are needed in any case, and they alone cost more. -/
theorem containmentCost_le_spellingCost (hterm : term ≠ []) (h : term <:+: word) :
    containmentCost term word ≤ spellingCost term word := by
  have hlength : term.length ≤ word.length := h.length_le
  have hword : (0 : Rat) < word.length := Nat.cast_pos.2 ((List.length_pos_iff.2 hterm).trans_le hlength)
  have hedits : (word.length : Rat) - term.length ≤ leastCost term word := by
    have hle := (length_le_leastCost term word).2
    have hle : (word.length : Rat) ≤ term.length + leastCost term word := by exact_mod_cast hle
    linarith
  have hshare : (0 : Rat) ≤ 1 - (term.length : Rat) / word.length :=
    sub_nonneg.2 (div_le_one_of_le₀ (Nat.cast_le.2 hlength) hword.le)
  rw [spellingCost, max_eq_right hlength]
  calc containmentCost term word ≤ 1 - (term.length : Rat) / word.length := by
        unfold containmentCost
        linarith
    _ = ((word.length : Rat) - term.length) / word.length := by rw [sub_div, div_self hword.ne']
    _ ≤ (leastCost term word : Rat) / word.length := div_le_div_of_nonneg_right hedits hword.le

/-- **No way to reach a word is cheaper than the first one.** -/
theorem idealDistance?_eq_min? (hterm : term ≠ []) : idealDistance? fuzzy term word = (costs fuzzy term word).min? := by
  unfold idealDistance? costs
  by_cases heq : term = word
  · subst heq
    rw [if_pos rfl, if_pos rfl, if_pos List.infix_rfl, containmentCost_self hterm, spellingCost_self]
    cases fuzzy <;> simp [List.min?]
  rw [if_neg heq, if_neg heq, List.nil_append]
  by_cases hcontains : term <:+: word
  · have hle := containmentCost_le_spellingCost hterm hcontains
    rw [if_pos hcontains, if_pos hcontains]
    cases fuzzy <;> simp [List.min?, hle]
  · rw [if_neg hcontains, if_neg hcontains, List.nil_append]
    cases fuzzy <;> simp [List.min?]

theorem min?_costs (hterm : term ≠ []) : (fun word => (costs fuzzy term word).min?) = idealDistance? fuzzy term :=
  funext fun _ => (idealDistance?_eq_min? hterm).symm

/-- **Only an equal word is at distance 0.** -/
theorem idealDistance?_eq_zero_iff (hterm : term ≠ []) : idealDistance? fuzzy term word = some 0 ↔ word = term := by
  have hpos : 0 < term.length := List.length_pos_iff.2 hterm
  unfold idealDistance?
  by_cases heq : term = word
  · rw [if_pos heq]
    exact iff_of_true rfl heq.symm
  rw [if_neg heq, iff_false_right (Ne.symm heq)]
  by_cases hcontains : term <:+: word
  · -- a word of more characters leaves some over
    have hlt : term.length < word.length := hcontains.length_le.lt_of_ne fun hlength => heq (hcontains.eq_of_length hlength)
    have hshare : (term.length : Rat) / word.length < 1 :=
      (div_lt_one (Nat.cast_pos.2 (hpos.trans hlt))).2 (Nat.cast_lt.2 hlt)
    have hcost : 0 < containmentCost term word := by
      unfold containmentCost
      linarith
    rw [if_pos hcontains, Option.some_inj]
    exact hcost.ne'
  rw [if_neg hcontains]
  cases fuzzy with
  | false => simp
  | true =>
    have hedits : leastCost term word ≠ 0 := fun hzero => heq (leastCost_eq_zero_iff.1 hzero)
    have hlonger : max term.length word.length ≠ 0 := (lt_max_of_lt_left hpos).ne'
    rw [if_pos rfl, Option.some_inj]
    exact div_ne_zero (Nat.cast_ne_zero.2 hedits) (Nat.cast_ne_zero.2 hlonger)

/-! ## what a matcher gives -/

/-- The distance that is computed is the ideal one. -/
theorem unboundedDistance?_eq_idealDistance? (hterm : term ≠ []) (hword : word ≠ []) :
    (unboundedDistance? term word fuzzy : Option Rat) = idealDistance? fuzzy term word := by
  have hcontainment : (containmentPenalty * (Scalar.ofNat 1 - Scalar.ofNat term.length / Scalar.ofNat word.length) : Rat) =
      containmentCost term word := by
    simp [containmentPenalty, containmentCost]
  have hspelling : (EditDistance.normalized term word : Rat) = spellingCost term word := by
    have hlonger : max term.length word.length ≠ 0 := (lt_max_of_lt_left (List.length_pos_iff.2 hterm)).ne'
    rw [EditDistance.normalized, if_neg hlonger, EditDistance.distance_eq_leastCost]
    rfl
  have hempty : ¬ (term.isEmpty || word.isEmpty) = true := by simp [hterm, hword]
  unfold unboundedDistance? idealDistance?
  rw [if_neg hempty, hcontainment, hspelling]
  simp only [Text.occursIn_iff, Bool.not_eq_true', Scalar.ofNat_rat, Nat.cast_zero]
  cases fuzzy <;> rfl

/-- **The bound on the lengths loses nothing**: a matcher gives the ideal distances up to its threshold. -/
theorem wordDistance?_eq_idealDistance? (h₀ : 0 ≤ t) (h₁ : t ≤ 1) (hterm : term ≠ []) (hword : word ≠ []) :
    (ofThreshold t).wordDistance? term word fuzzy = upTo t (idealDistance? fuzzy term) word := by
  have hvalid : (ofThreshold t).Valid := valid_ofThreshold (by simpa using h₀) (by simpa using h₁)
  have hthreshold : (ofThreshold t).threshold = t := Scalar.clampUnit_eq_self (by simpa using h₀) (by simpa using h₁)
  rw [wordDistance?_eq_filter hvalid, unboundedDistance?_eq_idealDistance? hterm hword, hthreshold, upTo]

end Matcher

/-! ## the first of the nearest -/

namespace FieldMatch

variable {l before after : List (Text × Rat)} {r : Text × Rat}

theorem nearest?_append_cons (hbefore : ∀ v ∈ before, r.2 < v.2) (hafter : ∀ v ∈ after, r.2 ≤ v.2) :
    nearest? (before ++ r :: after) = some r := by
  induction before with
  | nil =>
    rw [List.nil_append, nearest?]
    cases hv : nearest? after with
    | none => rfl
    | some v => exact if_neg (not_lt.2 (hafter v (mem_of_nearest? hv)))
  | cons w before ih =>
    obtain ⟨hw, hbefore⟩ := List.forall_mem_cons.1 hbefore
    rw [List.cons_append, nearest?, ih hbefore]
    exact if_pos hw

theorem exists_of_nearest? (h : nearest? l = some r) :
    ∃ before after, l = before ++ r :: after ∧ (∀ v ∈ before, r.2 < v.2) ∧ ∀ v ∈ after, r.2 ≤ v.2 := by
  induction l generalizing r with
  | nil => exact absurd h (Option.some_ne_none r ∘ Eq.symm)
  | cons w l ih =>
    rw [nearest?] at h
    cases hv : nearest? l with
    | none =>
      have hnil : l = [] := List.map_eq_nil_iff.1 ((nearest?_spec fun v _ => le_rfl).none hv)
      rw [hv] at h
      obtain rfl := Option.some.inj h
      exact ⟨[], [], by rw [hnil]; rfl, List.forall_mem_nil _, List.forall_mem_nil _⟩
    | some v =>
      rw [hv] at h
      dsimp only at h
      split at h
      · next hlt =>
        obtain rfl := Option.some.inj h
        obtain ⟨before, after, rfl, hbefore, hafter⟩ := ih hv
        exact ⟨w :: before, after, rfl, List.forall_mem_cons.2 ⟨hlt, hbefore⟩, hafter⟩
      · next hlt =>
        obtain rfl := Option.some.inj h
        have hleast := (nearest?_spec fun v _ => le_rfl).some v hv
        refine ⟨[], l, rfl, List.forall_mem_nil _, fun u hu => ?_⟩
        exact (not_lt.1 hlt).trans (hleast.le u.2 (List.mem_map_of_mem hu))

/-- Of the two first words the nearer one decides, and the first one if both are as near. -/
theorem nearest?_cons_cons (b v : Text × Rat) (l : List (Text × Rat)) :
    nearest? (b :: v :: l) = nearest? ((if v.2 < b.2 then v else b) :: l) := by
  rw [nearest?]
  by_cases hvb : v.2 < b.2
  · -- what is found after `b` is as near as `v`, and so nearer than `b`
    rw [if_pos hvb]
    have hleast : FindsLeast (nearest? (v :: l)) ((v :: l).map (·.2)) := nearest?_spec fun _ _ => le_rfl
    cases hu : nearest? (v :: l) with
    | none => exact absurd (hleast.none hu) (by simp)
    | some u =>
      have huv : u.2 ≤ v.2 := (hleast.some u hu).le v.2 (by simp)
      exact if_pos (huv.trans_lt hvb)
  · rw [if_neg hvb, nearest?, nearest?]
    cases nearest? l with
    | none => exact if_neg hvb
    | some u =>
      dsimp only
      by_cases huv : u.2 < v.2
      · rw [if_pos huv]
      · have hub : ¬ u.2 < b.2 := not_lt.2 ((not_lt.1 hvb).trans (not_lt.1 huv))
        rw [if_neg huv, if_neg hub]
        exact if_neg hvb

end FieldMatch

namespace Matcher

variable {term : Text} {words : List Text} {fuzzy : Bool} {t : Rat}

/-- The words of a list that have a distance, each with it. -/
def withDistances (distance? : Text → Option Rat) (words : List Text) : List (Text × Rat) :=
  words.filterMap fun word => (distance? word).map (word, ·)

theorem mem_withDistances_iff {distance? : Text → Option Rat} {r : Text × Rat} :
    r ∈ withDistances distance? words ↔ r.1 ∈ words ∧ distance? r.1 = some r.2 := by
  unfold withDistances
  rw [List.mem_filterMap]
  constructor
  · rintro ⟨word, hword, hr⟩
    obtain ⟨d, hd, rfl⟩ := Option.map_eq_some_iff.1 hr
    exact ⟨hword, hd⟩
  · rintro ⟨hword, hd⟩
    exact ⟨r.1, hword, by rw [hd]; rfl⟩

/-- A word is the first of those at the least distance. -/
structure FirstNearest (distance? : Text → Option Rat) (words : List Text) (word : Text) (d : Rat) : Prop where
  distance : distance? word = some d
  least : ∀ w ∈ words, ∀ e, distance? w = some e → d ≤ e
  first : ∃ before after, words = before ++ word :: after ∧ ∀ w ∈ before, ∀ e, distance? w = some e → d < e

theorem FirstNearest.of_nearest? {distance? : Text → Option Rat} {r : Text × Rat}
    (h : FieldMatch.nearest? (withDistances distance? words) = some r) : FirstNearest distance? words r.1 r.2 := by
  obtain ⟨near, far, hl, hnear, hfar⟩ := FieldMatch.exists_of_nearest? h
  -- the words that have a distance are among those before the one that is found and those after it
  obtain ⟨before, rest, rfl, hbefore, hrest⟩ := List.filterMap_eq_append_iff.1 hl
  obtain ⟨skipped, word, after, rfl, hskipped, hword, -⟩ := List.filterMap_eq_cons_iff.1 hrest
  obtain ⟨d, hd, rfl⟩ := Option.map_eq_some_iff.1 hword
  refine ⟨hd, fun w hw e he => ?_, before ++ skipped, after, by simp, fun w hw e he => ?_⟩
  · have hwe : (w, e) ∈ near ++ (word, d) :: far := hl ▸ mem_withDistances_iff.2 ⟨hw, he⟩
    rcases List.mem_append.1 hwe with hwe | hwe
    · exact (hnear _ hwe).le
    · rcases List.mem_cons.1 hwe with heq | hwe
      · exact (Prod.mk.inj heq).2.ge
      · exact hfar _ hwe
  · rcases List.mem_append.1 hw with hw | hw
    · have hwe : (w, e) ∈ withDistances distance? before := mem_withDistances_iff.2 ⟨hw, he⟩
      exact hnear (w, e) (hbefore ▸ hwe)
    · have hnone := hskipped w hw
      rw [he] at hnone
      exact absurd hnone (Option.some_ne_none _)

theorem FirstNearest.nearest?_eq {distance? : Text → Option Rat} {word : Text} {d : Rat}
    (h : FirstNearest distance? words word d) :
    FieldMatch.nearest? (withDistances distance? words) = some (word, d) := by
  obtain ⟨hdistance, hleast, before, after, rfl, hbefore⟩ := h
  have hsplit : withDistances distance? (before ++ word :: after) =
      withDistances distance? before ++ (word, d) :: withDistances distance? after := by
    rw [withDistances, List.filterMap_append, List.filterMap_cons, hdistance]
    rfl
  rw [hsplit]
  refine FieldMatch.nearest?_append_cons (fun v hv => ?_) fun v hv => ?_
  · obtain ⟨hmem, hv⟩ := mem_withDistances_iff.1 hv
    exact hbefore v.1 hmem v.2 hv
  · obtain ⟨hmem, hv⟩ := mem_withDistances_iff.1 hv
    exact hleast v.1 (List.mem_append_right _ (List.mem_cons_of_mem _ hmem)) v.2 hv

theorem nearest?_withDistances_eq_none_iff {distance? : Text → Option Rat} :
    FieldMatch.nearest? (withDistances distance? words) = none ↔ ∀ word ∈ words, distance? word = none := by
  have hleast : FindsLeast (FieldMatch.nearest? (withDistances distance? words)) ((withDistances distance? words).map (·.2)) :=
    FieldMatch.nearest?_spec fun _ _ => le_rfl
  have hnil : FieldMatch.nearest? (withDistances distance? words) = none ↔ withDistances distance? words = [] :=
    ⟨fun hnone => List.map_eq_nil_iff.1 (hleast.none hnone), fun hnil => by rw [hnil]; rfl⟩
  rw [hnil, withDistances, List.filterMap_eq_nil_iff]
  simp only [Option.map_eq_none_iff]

/-! ## what is found -/

/-- **Stopping at 0 loses nothing.** The induction is on the words that are left; `best?` is the nearest one so far, and
that is not at 0, or the search would have stopped at it. -/
theorem closestWordAfter?_eq_nearest? {m : Matcher Rat} (hm : m.Valid) (best? : Option (Text × Rat))
    (hbest : ∀ b ∈ best?, 0 < b.2) : m.closestWordAfter? term fuzzy best? words =
      FieldMatch.nearest? (best?.toList ++ withDistances (m.wordDistance? term · fuzzy) words) := by
  induction words generalizing best? with
  | nil => cases best? <;> rfl
  | cons word words ih =>
    rw [closestWordAfter?, withDistances, List.filterMap_cons]
    cases hword : m.wordDistance? term word fuzzy with
    | none => exact ih best? hbest
    | some d =>
      have hd : 0 ≤ d := by simpa using (wordDistance?_bounds hm hword).1
      have hrest : ∀ v ∈ withDistances (m.wordDistance? term · fuzzy) words, 0 ≤ v.2 := fun v hv => by
        simpa using (wordDistance?_bounds hm (mem_withDistances_iff.1 hv).2).1
      dsimp only [Option.map_some]
      by_cases hzero : d = 0
      · subst hzero
        rw [if_pos (by simp)]
        exact (FieldMatch.nearest?_append_cons (fun v hv => hbest v (Option.mem_toList.1 hv)) hrest).symm
      · have hpos : 0 < d := hd.lt_of_ne' hzero
        rw [if_neg (by simpa using hzero)]
        cases best? with
        | none => exact ih (some (word, d)) (by simpa using hpos)
        | some b =>
          have hb : 0 < b.2 := hbest b rfl
          rw [Option.toList_some, List.singleton_append, FieldMatch.nearest?_cons_cons]
          dsimp only
          by_cases hlt : d < b.2
          · rw [if_pos (decide_eq_true hlt), if_pos hlt]
            exact ih (some (word, d)) (by simpa using hpos)
          · rw [if_neg (by simpa using hlt), if_neg hlt]
            exact ih (some b) hbest

variable (fuzzy) in
/-- The word that is found is the one that a search without short cuts finds, which takes the least of all costs of each
word, and goes through all words. -/
theorem closestWord?_eq_nearest? (h₀ : 0 ≤ t) (h₁ : t ≤ 1) (hterm : term ≠ []) (hwords : ∀ word ∈ words, word ≠ []) :
    (ofThreshold t).closestWord? term words fuzzy =
      FieldMatch.nearest? (withDistances (upTo t fun word => (costs fuzzy term word).min?) words) := by
  have hvalid : (ofThreshold t).Valid := valid_ofThreshold (by simpa using h₀) (by simpa using h₁)
  have hdistances : withDistances ((ofThreshold t).wordDistance? term · fuzzy) words =
      withDistances (upTo t (idealDistance? fuzzy term)) words := by
    refine List.filterMap_congr fun word hword => ?_
    dsimp only
    rw [wordDistance?_eq_idealDistance? h₀ h₁ hterm (hwords word hword)]
  rw [min?_costs hterm, ← hdistances]
  exact closestWordAfter?_eq_nearest? hvalid none (by simp)

/-- **The first of the nearest words is found.**  Over exact rationals, for every threshold between 0 and 1, every term and
all words that are not empty, with or without tolerance, the word that is found is the first of those at the least ideal
distance up to the threshold, with this distance, and none is found only if no word is so near.  A field is at this distance,
or at 0 if the term occurs in its text and is not a single word.  What the short cuts leave out makes no difference: a search
that takes the least of all costs of each word, and goes through all words, finds the same; and only an equal word is at
distance 0. -/
theorem closestWord?_ideal (h₀ : 0 ≤ t) (h₁ : t ≤ 1) (hterm : term ≠ []) (hwords : ∀ word ∈ words, word ≠ [])
    (lower : Text) (fuzzy : Bool) :
    (∀ word d, (ofThreshold t).closestWord? term words fuzzy = some (word, d) ↔
        FirstNearest (upTo t (idealDistance? fuzzy term)) words word d) ∧
      ((ofThreshold t).closestWord? term words fuzzy = none ↔
        ∀ word ∈ words, ∀ d, idealDistance? fuzzy term word = some d → t < d) ∧
      (ofThreshold t).fieldDistance? term lower words fuzzy =
        (if Text.segmentWords term ≠ [term] ∧ term <:+: lower then some 0
          else ((ofThreshold t).closestWord? term words fuzzy).map (·.2)) ∧
      (ofThreshold t).closestWord? term words fuzzy =
        FieldMatch.nearest? (withDistances (upTo t fun word => (costs fuzzy term word).min?) words) ∧
      ∀ word, idealDistance? fuzzy term word = some 0 ↔ word = term := by
  have hsearch := closestWord?_eq_nearest? fuzzy h₀ h₁ hterm hwords
  refine ⟨fun word d => ?_, ?_, ?_, hsearch, fun word => idealDistance?_eq_zero_iff hterm⟩
  · rw [hsearch, min?_costs hterm]
    exact ⟨FirstNearest.of_nearest?, FirstNearest.nearest?_eq⟩
  · rw [hsearch, min?_costs hterm, nearest?_withDistances_eq_none_iff]
    simp only [Option.eq_none_iff_forall_ne_some, ne_eq, upTo_eq_some_iff, not_and, not_le]
  · have hempty : ¬ term.isEmpty = true := by simp [hterm]
    rw [fieldDistance?, if_neg hempty]
    simp only [isSingleWord, Bool.and_eq_true, Bool.not_eq_true', beq_eq_false_iff_ne, Text.occursIn_iff, Scalar.ofNat_rat,
      Nat.cast_zero]

theorem closestWord?_ideal_misspelt :
    (0 : Rat) ≤ 1 / 5 ∧ (1 / 5 : Rat) ≤ 1 ∧ "secruity".toList ≠ [] ∧
      FirstNearest (upTo (1 / 5) (idealDistance? true "secruity".toList))
        ["cybersecurity".toList, "security".toList, "secruit".toList] "security".toList (1 / 8) := by
  have hwords : ∀ word ∈ ["cybersecurity".toList, "security".toList, "secruit".toList], word ≠ [] := by decide
  have h₀ : (0 : Rat) ≤ 1 / 5 := by norm_num
  have h₁ : (1 / 5 : Rat) ≤ 1 := by norm_num
  have hterm : "secruity".toList ≠ [] := by decide
  obtain ⟨hfound, -⟩ := closestWord?_ideal h₀ h₁ hterm hwords [] true
  exact ⟨h₀, h₁, hterm, (hfound _ _).1 (by decide +kernel)⟩

end Matcher
end ContentSearch
