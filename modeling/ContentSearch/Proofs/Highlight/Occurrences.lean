import ContentSearch.Highlight.Pattern
import ContentSearch.Proofs.Highlight.Origins
import ContentSearch.Proofs.Query.WellFormed

/-!
# What a search finds is highlighted

A search compares a text with what is sought in its full lowercase form, where a capital sigma that ends a word is final; a
pattern is sought in a lowercase copy that is made character by character, up to case folding.  Folding makes the two
sigmas equal, so that the folded forms are one (`map_fold_lowercaseAfter`).

* `occursIn_iff`: a pattern occurs exactly where something that it tries occurs up to folding;
* `mem_terms_iff`: what a query highlights;
* `seeks_of_isInfix`: a query *seeks* something in every text in whose lowercase form one of its terms or phrases occurs;
* `occursIn_ofQuery_iff`: and that is where its pattern occurs, if the pattern was compiled.
-/

namespace ContentSearch

/-! ## lowercase texts -/

namespace Text

theorem map_fold_lowercaseAmid (before : Text) (c : Char) (after : Text) :
    (lowercaseAmid before c after).map fold = (lowercaseChar c).map fold := by
  have hsigmas : ['ς'].map fold = (lowercaseChar 'Σ').map fold ∧ ['σ'].map fold = (lowercaseChar 'Σ').map fold := by
    decide +kernel
  unfold lowercaseAmid
  split
  · next hc =>
    rw [hc]
    split
    · exact hsigmas.1
    · exact hsigmas.2
  · rfl

theorem map_fold_lowercaseAfter (before t : Text) :
    (lowercaseAfter before t).map fold = (Folded.lowerEach t).map fold := by
  induction t generalizing before with
  | nil => rfl
  | cons c t ih =>
    have hcons : Folded.lowerEach (c :: t) = lowercaseChar c ++ Folded.lowerEach t := rfl
    rw [lowercaseAfter_cons, hcons, List.map_append, List.map_append, map_fold_lowercaseAmid, ih]

/-- No other character folds to a full stop. -/
theorem eq_stop_of_fold {c : Char} (h : fold c = '.') : c = '.' := by
  have hrules : (∀ r ∈ lowercaseRules, 0x2E < r.image) ∧ ∀ r ∈ foldingRules, 0x2E < r.image := by decide +kernel
  unfold fold at h
  split at h
  · next hdot => exact absurd (h.symm.trans hdot) (by decide)
  · have hn : applyRules (applyRules c.toNat lowercaseRules) foldingRules = 0x2E := by
      have htoNat := congrArg Char.toNat h
      by_cases hv : (applyRules (applyRules c.toNat lowercaseRules) foldingRules).isValidChar
      · rwa [Char.ofNat, dif_pos hv] at htoNat
      · rw [Char.ofNat, dif_neg hv] at htoNat
        exact absurd htoNat (by decide)
    have hc : c.toNat = 0x2E := eq_of_applyRules hrules.1 (eq_of_applyRules hrules.2 hn)
    rw [← Char.ofNat_toNat c, hc]

end Text

/-! ## patterns -/

namespace Pattern

variable {p : Pattern} {term t : Text}

theorem startsWithFolded_iff : startsWithFolded term t = true ↔ term.map Text.fold <+: t.map Text.fold := by
  induction term generalizing t with
  | nil => simp [startsWithFolded]
  | cons a term ih =>
    cases t with
    | nil => simp [startsWithFolded]
    | cons c t => simp [startsWithFolded, ih, List.cons_prefix_cons]

theorem matchLength?_isSome_iff :
    (p.matchLength? t).isSome ↔ ∃ term ∈ p.tried, term.map Text.fold <+: t.map Text.fold := by
  simp [matchLength?, startsWithFolded_iff]

/-- There are matches exactly if a term stands at some place of the text. The induction is on the scan, which stops looking at
places only where it has a match. -/
theorem matchesFrom_ne_nil_iff {offset : Nat} :
    p.matchesFrom offset t ≠ [] ↔ ∃ s u, t = s ++ u ∧ u ≠ [] ∧ (p.matchLength? u).isSome := by
  fun_induction matchesFrom p offset t with
  | case1 =>
    constructor
    · intro h
      exact absurd rfl h
    · rintro ⟨s, u, h, hu, -⟩
      exact absurd (List.append_eq_nil_iff.1 h.symm).2 hu
  | case2 offset c t hnone ih =>
    rw [ih]
    constructor
    · rintro ⟨s, u, rfl, hu, hsome⟩
      exact ⟨c :: s, u, rfl, hu, hsome⟩
    · rintro ⟨s, u, h, hu, hsome⟩
      cases s with
      | nil =>
        rw [List.nil_append] at h
        rw [← h, hnone] at hsome
        exact absurd hsome Bool.false_ne_true
      | cons d s => exact ⟨s, u, (List.cons.inj h).2, hu, hsome⟩
  | case3 offset c t n hsome stop ih =>
    constructor
    · intro _
      exact ⟨[], c :: t, rfl, List.cons_ne_nil c t, by rw [hsome]; rfl⟩
    · intro _
      exact List.cons_ne_nil _ _

/-- **A pattern occurs exactly where something that it tries does**, up to folding. -/
theorem occursIn_iff (hp : [] ∉ p.tried) :
    p.occursIn t = true ↔ ∃ term ∈ p.tried, term.map Text.fold <:+: (Folded.lowerEach t).map Text.fold := by
  rw [occursIn, foldedMatches, Folded.lower_ofText, Bool.not_eq_true', List.isEmpty_eq_false_iff, matchesFrom_ne_nil_iff]
  constructor
  · rintro ⟨s, u, h, -, hsome⟩
    obtain ⟨term, hterm, hfront⟩ := matchLength?_isSome_iff.1 hsome
    refine ⟨term, hterm, ?_⟩
    rw [h, List.map_append]
    exact hfront.isInfix.trans (List.suffix_append ..).isInfix
  · rintro ⟨term, hterm, s, u, h⟩
    obtain ⟨sm, u', hsplit, hsm, -⟩ := List.map_eq_append_iff.1 h.symm
    obtain ⟨s', m, rfl, -, hm⟩ := List.map_eq_append_iff.1 hsm
    refine ⟨s', m ++ u', by rw [hsplit, List.append_assoc], ?_, ?_⟩
    · rintro hnil
      obtain rfl := (List.append_eq_nil_iff.1 hnil).1
      exact hp (List.map_eq_nil_iff.1 hm.symm ▸ hterm)
    · refine matchLength?_isSome_iff.2 ⟨term, hterm, ?_⟩
      rw [List.map_append, hm]
      exact List.prefix_append ..

end Pattern

/-! ## queries -/

namespace Highlight

theorem mem_dropRepeated {l : List Text} {t : Text} : t ∈ dropRepeated l ↔ t ∈ l := by
  fun_induction dropRepeated l with
  | case1 => rfl
  | case2 a => rfl
  | case3 a l ih => simp [ih]
  | case4 a b l h ih => simp [ih]

/-- What a query seeks in a text: its terms, its phrases and the words of its phrases, in lowercase. -/
def IsSought (q : Query) (t : Text) : Prop :=
  (∃ u ∈ q.terms ++ q.phrases, Text.lowercase u = t) ∨ ∃ u ∈ q.phrases, ∃ w ∈ Text.words u, Text.lowercase w = t

theorem mem_terms_iff {q : Query} {t : Text} : t ∈ terms q ↔ t ≠ [] ∧ IsSought q t := by
  simp only [terms, IsSought, mem_dropRepeated, List.mem_mergeSort, List.mem_filter, List.mem_append, List.mem_map,
    List.mem_flatMap, Bool.not_eq_true', List.isEmpty_eq_false_iff, and_comm, ne_eq]

end Highlight

namespace Pattern

open Highlight

variable {q : Query} {u t : Text}

/-- What a query seeks occurs in the lowercase copy of a text, up to case folding. -/
def Seeks (q : Query) (t : Text) : Prop :=
  ∃ term, term ≠ [] ∧ IsSought q term ∧ term.map Text.fold <:+: (Folded.lowerEach t).map Text.fold

/-- **What a search finds is sought**: a term or a phrase that occurs in the lowercase form of a text. -/
theorem seeks_of_isInfix (hmem : u ∈ q.terms ++ q.phrases) (hne : u ≠ []) (hlower : Text.lowercase u = u)
    (h : u <:+: Text.lowercase t) : Seeks q t := by
  refine ⟨u, hne, .inl ⟨u, hmem, hlower⟩, ?_⟩
  rw [← Text.map_fold_lowercaseAfter []]
  exact h.map Text.fold

theorem Seeks.of_isInfix {w : Text} (hw : Seeks q w) (h : w <:+: t) : Seeks q t := by
  obtain ⟨before, after, rfl⟩ := h
  obtain ⟨term, hne, hsought, hinfix⟩ := hw
  have hpart : Folded.lowerEach w <:+: Folded.lowerEach (before ++ w ++ after) :=
    ⟨Folded.lowerEach before, Folded.lowerEach after, by rw [Folded.lowerEach_append, Folded.lowerEach_append]⟩
  exact ⟨term, hne, hsought, hinfix.trans (hpart.map Text.fold)⟩

section Compiled

variable [PatternCompiler]

theorem tried_ofQuery (hq : (ofQuery q).accepted = true) : (ofQuery q).tried = Highlight.terms q := if_pos hq

theorem mem_tried_ofQuery {term : Text} :
    term ∈ (ofQuery q).tried ↔ (ofQuery q).accepted = true ∧ term ≠ [] ∧ IsSought q term := by
  rw [← mem_terms_iff, tried]
  split
  · next hq => exact ⟨fun h => ⟨hq, h⟩, And.right⟩
  · next hq => exact ⟨fun h => absurd h List.not_mem_nil, fun h => absurd h.1 hq⟩

theorem nil_not_mem_ofQuery (q : Query) : [] ∉ (ofQuery q).tried := fun h => (mem_tried_ofQuery.1 h).2.1 rfl

/-- **The pattern of a query occurs in a text** if what the query seeks does, provided that it was compiled. -/
theorem occursIn_ofQuery_iff : (ofQuery q).occursIn t = true ↔ (ofQuery q).accepted = true ∧ Seeks q t := by
  rw [occursIn_iff (nil_not_mem_ofQuery q)]
  constructor
  · rintro ⟨term, hterm, hinfix⟩
    obtain ⟨hq, hne, hsought⟩ := mem_tried_ofQuery.1 hterm
    exact ⟨hq, term, hne, hsought, hinfix⟩
  · rintro ⟨hq, term, hne, hsought, hinfix⟩
    exact ⟨term, mem_tried_ofQuery.2 ⟨hq, hne, hsought⟩, hinfix⟩

theorem not_occursIn_of_not_seeks (h : ¬ Seeks q t) : (ofQuery q).occursIn t = false :=
  Bool.eq_false_iff.2 fun hoccurs => h (occursIn_ofQuery_iff.1 hoccurs).2

theorem not_seeks_of_not_occursIn (hq : (ofQuery q).accepted = true) (h : (ofQuery q).occursIn t = false) : ¬ Seeks q t :=
  fun hseeks => Bool.eq_false_iff.1 h (occursIn_ofQuery_iff.2 ⟨hq, hseeks⟩)

theorem occursIn_of_isInfix {w : Text} (h : w <:+: t) (hw : (ofQuery q).occursIn w = true) : (ofQuery q).occursIn t = true :=
  occursIn_ofQuery_iff.2 ((occursIn_ofQuery_iff.1 hw).imp_right fun hseeks => hseeks.of_isInfix h)

end Compiled

end Pattern

theorem Query.lower_of_mem_parse {t u : Text} (h : u ∈ (parse t).terms ++ (parse t).phrases) :
    u ≠ [] ∧ Text.lowercase u = u := by
  have hwell := (parse_wellFormed t).toValid
  rcases List.mem_append.1 h with h | h
  · obtain ⟨⟨hne, -⟩, hlower⟩ := (hwell.terms u h).lowerWord
    exact ⟨hne, hlower⟩
  · exact ⟨(hwell.phrases u h).ne_nil, (hwell.phrases u h).lower⟩

end ContentSearch
