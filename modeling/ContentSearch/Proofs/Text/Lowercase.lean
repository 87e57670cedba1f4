import ContentSearch.Text.Case
import ContentSearch.Text.Whitespace

/-!
# Lowercase texts

* `lowercaseChar_of_mem_lowercaseAfter`: every character of a lowercase text is its own lowercase form;
* `lowercase_lowercase`: lowering twice is lowering once;
* `dropWhile_lowercaseAfter`, `count_lowercaseAfter`, …: lowering neither moves, makes nor removes a *separator*, a character
  at which queries and fields are cut;
* `lowercase_infix`: a part of a text is lowered in it as it is by itself, if its capital sigmas are final there and by
  themselves alike;
* `lowercase_eq_asciiLowercase`: where lowering the ASCII capitals leaves no capital, it comes to the same.

The facts about the table of letter case are comparisons of its rules with each other and with the separators.
-/

namespace ContentSearch.Text

/-! ## the rules -/

/-- A code point is either left alone or lies in the domain of a rule, which gives its image. -/
theorem applyRules_cases (n : Nat) (l : List CaseRule) :
    applyRules n l = n ∨ ∃ r ∈ l, r.first ≤ n ∧ n ≤ r.last ∧ (n - r.first) % r.step = 0 ∧
      applyRules n l = r.image + (n - r.first) := by
  induction l with
  | nil => exact Or.inl rfl
  | cons r l ih =>
    unfold applyRules
    split
    · exact Or.inl rfl
    · split
      · next h1 h2 => exact Or.inr ⟨r, by simp, by omega, h2.1, h2.2, rfl⟩
      · rcases ih with h | ⟨r', hr', h⟩
        · exact Or.inl h
        · exact Or.inr ⟨r', List.mem_cons_of_mem _ hr', h⟩

theorem eq_of_applyRules {n k : Nat} {l : List CaseRule} (hl : ∀ r ∈ l, k < r.image) (h : applyRules n l = k) : n = k := by
  rcases applyRules_cases n l with hn | ⟨r, hr, -, -, -, hn⟩
  · exact hn.symm.trans h
  · have := hl r hr
    omega

/-- No image of `r` lies in the domain of `s`. -/
def avoids (r s : CaseRule) : Bool :=
  Nat.blt s.last r.image || Nat.blt (r.image + (r.last - r.first)) s.first ||
    (Nat.beq s.step 2 && (Nat.beq r.step 2 || Nat.beq r.first r.last) && Nat.beq ((r.image + s.first) % 2) 1)

theorem not_mem_domain_of_avoids {r s : CaseRule} (h : avoids r s = true) {n : Nat} (h1 : r.first ≤ n)
    (h2 : n ≤ r.last) (h3 : (n - r.first) % r.step = 0) :
    ¬ (s.first ≤ r.image + (n - r.first) ∧ r.image + (n - r.first) ≤ s.last ∧
      (r.image + (n - r.first) - s.first) % s.step = 0) := by
  simp only [avoids, Bool.or_eq_true, Bool.and_eq_true, Nat.blt_eq, Nat.beq_eq] at h
  rintro ⟨h4, h5, h6⟩
  rcases h with (h | h) | ⟨⟨hs, hr⟩, h⟩
  · omega
  · omega
  · rw [hs] at h6
    rcases hr with hr | hr
    · rw [hr] at h3
      omega
    · omega

/-- The capital `İ` as a rule, which no image may meet either. -/
def dottedRule : CaseRule := ⟨0x130, 0x130, 1, 0x130⟩

/-- Every image is a character. -/
def hasImages (r : CaseRule) : Bool :=
  Nat.blt (r.image + (r.last - r.first)) 0xD800 ||
    (Nat.blt 0xDFFF r.image && Nat.blt (r.image + (r.last - r.first)) 0x110000)

/-! ## separators -/

/-- The characters at which queries and fields are cut: white space, quotes, colons and dashes. -/
def isSeparator (c : Char) : Bool := isBlank c || c == '"' || c == ':' || c == '-'

theorem isSeparator_of_isBlank {c : Char} (h : isBlank c = true) : isSeparator c = true := by
  simp [isSeparator, h]

theorem isSeparator_of_beq {d : Char} (hd : isSeparator d = true) : ∀ c, (c == d) = true → isSeparator c = true := by
  intro c hc
  rwa [beq_iff_eq.1 hc]

/-- The code points of the separators. -/
def separatorRanges : List (Nat × Nat) := (0x22, 0x22) :: (0x2D, 0x2D) :: (0x3A, 0x3A) :: whitespaceRanges

theorem exists_of_isSeparator {c : Char} (h : isSeparator c = true) :
    ∃ g ∈ separatorRanges, g.1 ≤ c.toNat ∧ c.toNat ≤ g.2 := by
  simp only [isSeparator, Bool.or_eq_true, beq_iff_eq] at h
  rcases h with ((h | rfl) | rfl) | rfl
  · obtain ⟨g, hg, hb⟩ := exists_of_inRanges h
    exact ⟨g, by simp [separatorRanges, hg], hb⟩
  · exact ⟨(0x22, 0x22), by simp [separatorRanges], by decide, by decide⟩
  · exact ⟨(0x3A, 0x3A), by simp [separatorRanges], by decide, by decide⟩
  · exact ⟨(0x2D, 0x2D), by simp [separatorRanges], by decide, by decide⟩

/-- Neither a code point of the rule nor an image lies in the range. -/
def isApart (r : CaseRule) (g : Nat × Nat) : Bool :=
  (Nat.blt r.last g.1 || Nat.blt g.2 r.first) &&
    (Nat.blt (r.image + (r.last - r.first)) g.1 || Nat.blt g.2 r.image)

/-- What the table is checked for: that the images of a rule are characters, that no rule applies to them again, and that
neither they nor the code points of the rule are separators. -/
def isSound (r : CaseRule) : Bool :=
  hasImages r && separatorRanges.all (isApart r) && (dottedRule :: lowercaseRules).all (avoids r)

/-- The rules are sound, the letters that the exceptions come to are lowercase, and the capital sigma is not. -/
theorem table_sound : lowercaseRules.all isSound = true ∧
    lowercaseChar 'i' = ['i'] ∧ lowercaseChar '\u0307' = ['\u0307'] ∧ lowercaseChar 'ς' = ['ς'] ∧
      lowercaseChar 'σ' = ['σ'] ∧ lowercaseChar 'Σ' ≠ ['Σ'] := by
  decide +kernel

theorem sound_of_mem {r : CaseRule} (hr : r ∈ lowercaseRules) :
    hasImages r = true ∧ (∀ g ∈ separatorRanges, isApart r g = true) ∧
      ∀ s ∈ dottedRule :: lowercaseRules, avoids r s = true := by
  have h := List.all_eq_true.1 table_sound.1 r hr
  simp only [isSound, Bool.and_eq_true] at h
  obtain ⟨⟨himages, hapart⟩, havoids⟩ := h
  exact ⟨himages, List.all_eq_true.1 hapart, List.all_eq_true.1 havoids⟩

theorem apart_of_mem {r : CaseRule} (hr : r ∈ lowercaseRules) {c : Char} (hc : isSeparator c = true) :
    ¬ (r.first ≤ c.toNat ∧ c.toNat ≤ r.last) ∧
      ¬ (r.image ≤ c.toNat ∧ c.toNat ≤ r.image + (r.last - r.first)) := by
  obtain ⟨g, hg, hg1, hg2⟩ := exists_of_isSeparator hc
  have h := (sound_of_mem hr).2.1 g hg
  simp only [isApart, Bool.and_eq_true, Bool.or_eq_true, Nat.blt_eq] at h
  omega

/-! ## single characters -/

/-- The image of a code point in the domain of a rule is a character of its own lowercase form. -/
theorem lowercaseChar_image {r : CaseRule} (hr : r ∈ lowercaseRules) {n : Nat} (h1 : r.first ≤ n) (h2 : n ≤ r.last)
    (h3 : (n - r.first) % r.step = 0) :
    (Char.ofNat (r.image + (n - r.first))).toNat = r.image + (n - r.first) ∧
      lowercaseChar (Char.ofNat (r.image + (n - r.first))) = [Char.ofNat (r.image + (n - r.first))] := by
  obtain ⟨himg, -, havoid⟩ := sound_of_mem hr
  simp only [hasImages, Bool.or_eq_true, Bool.and_eq_true, Nat.blt_eq] at himg
  have hn : (Char.ofNat (r.image + (n - r.first))).toNat = r.image + (n - r.first) := by
    have hv : (r.image + (n - r.first)).isValidChar := by
      unfold Nat.isValidChar
      omega
    rw [Char.ofNat, dif_pos hv]
    rfl
  refine ⟨hn, ?_⟩
  unfold lowercaseChar
  rw [if_neg, hn]
  · rcases applyRules_cases (r.image + (n - r.first)) lowercaseRules with h | ⟨s, hs, h4, h5, h6, -⟩
    · rw [h]
    · exact absurd ⟨h4, h5, h6⟩ (not_mem_domain_of_avoids (havoid s (List.mem_cons_of_mem _ hs)) h1 h2 h3)
  · intro hdot
    have h130 : r.image + (n - r.first) = 0x130 := by rw [← hn, hdot]; rfl
    refine not_mem_domain_of_avoids (havoid dottedRule (by simp)) h1 h2 h3 ?_
    rw [h130]
    decide

theorem lowercaseChar_cases (c : Char) :
    lowercaseChar c = [c] ∨ (c = 'İ' ∧ lowercaseChar c = ['i', '\u0307']) ∨
      ∃ r ∈ lowercaseRules, r.first ≤ c.toNat ∧ c.toNat ≤ r.last ∧ (c.toNat - r.first) % r.step = 0 ∧
        lowercaseChar c = [Char.ofNat (r.image + (c.toNat - r.first))] := by
  unfold lowercaseChar
  split
  · next h => exact Or.inr (Or.inl ⟨h, rfl⟩)
  · rcases applyRules_cases c.toNat lowercaseRules with h | ⟨r, hr, h1, h2, h3, h⟩
    · left
      rw [h, Char.ofNat_toNat]
    · exact Or.inr (Or.inr ⟨r, hr, h1, h2, h3, by rw [h]⟩)

theorem lowercaseChar_ne_nil (c : Char) : lowercaseChar c ≠ [] := by
  unfold lowercaseChar
  split <;> simp

theorem lowercaseChar_of_mem {c d : Char} (h : d ∈ lowercaseChar c) : lowercaseChar d = [d] := by
  rcases lowercaseChar_cases c with hc | ⟨-, hc⟩ | ⟨r, hr, h1, h2, h3, hc⟩
  · rw [hc, List.mem_singleton] at h
    rw [h, hc]
  · rw [hc] at h
    simp only [List.mem_cons, List.not_mem_nil, or_false] at h
    obtain ⟨-, hi, hdot, -⟩ := table_sound
    rcases h with rfl | rfl
    · exact hi
    · exact hdot
  · rw [hc, List.mem_singleton] at h
    rw [h]
    exact (lowercaseChar_image hr h1 h2 h3).2

theorem lowercaseChar_of_isSeparator {c : Char} (h : isSeparator c = true) : lowercaseChar c = [c] := by
  rcases lowercaseChar_cases c with hc | ⟨rfl, -⟩ | ⟨r, hr, h1, h2, -⟩
  · exact hc
  · exact absurd h (by decide)
  · exact absurd ⟨h1, h2⟩ (apart_of_mem hr h).1

theorem isSeparator_of_mem_lowercaseChar {c d : Char} (h : d ∈ lowercaseChar c) (hd : isSeparator d = true) : d = c := by
  rcases lowercaseChar_cases c with hc | ⟨-, hc⟩ | ⟨r, hr, h1, h2, h3, hc⟩
  · rwa [hc, List.mem_singleton] at h
  · rw [hc] at h
    simp only [List.mem_cons, List.not_mem_nil, or_false] at h
    rcases h with rfl | rfl <;> exact absurd hd (by decide)
  · rw [hc, List.mem_singleton] at h
    have hn := (lowercaseChar_image hr h1 h2 h3).1
    rw [← h] at hn
    exact absurd (by omega) (apart_of_mem hr hd).2

/-! ## texts -/

/-- What a character is lowered to between the text before it, given backwards, and the text after it. -/
def lowercaseAmid (before : Text) (c : Char) (after : Text) : Text :=
  if c = 'Σ' then (if startsCased before && !startsCased after then ['ς'] else ['σ']) else lowercaseChar c

@[simp] theorem lowercaseAfter_nil (before : Text) : lowercaseAfter before [] = [] := rfl

theorem lowercaseAfter_cons (before : Text) (c : Char) (t : Text) :
    lowercaseAfter before (c :: t) = lowercaseAmid before c t ++ lowercaseAfter (c :: before) t := rfl

theorem lowercaseAmid_ne_nil (before : Text) (c : Char) (after : Text) : lowercaseAmid before c after ≠ [] := by
  unfold lowercaseAmid
  split
  · split <;> simp
  · exact lowercaseChar_ne_nil c

theorem mem_lowercaseAmid {before after : Text} {c d : Char} (h : d ∈ lowercaseAmid before c after) :
    d ∈ lowercaseChar c ∨ (c = 'Σ' ∧ (d = 'ς' ∨ d = 'σ')) := by
  unfold lowercaseAmid at h
  split at h
  · next hc =>
    split at h
    · exact Or.inr ⟨hc, Or.inl (List.mem_singleton.1 h)⟩
    · exact Or.inr ⟨hc, Or.inr (List.mem_singleton.1 h)⟩
  · exact Or.inl h

theorem lowercaseAmid_of_lowercaseChar {before after : Text} {c : Char} (h : lowercaseChar c = [c]) :
    lowercaseAmid before c after = [c] := by
  unfold lowercaseAmid
  rw [if_neg, h]
  rintro rfl
  exact table_sound.2.2.2.2.2 h

theorem isSeparator_of_mem_lowercaseAmid {before after : Text} {c d : Char} (h : d ∈ lowercaseAmid before c after)
    (hd : isSeparator d = true) : d = c := by
  rcases mem_lowercaseAmid h with h | ⟨-, rfl | rfl⟩
  · exact isSeparator_of_mem_lowercaseChar h hd
  · exact absurd hd (by decide)
  · exact absurd hd (by decide)

theorem lowercaseChar_of_mem_lowercaseAfter {before t : Text} {d : Char} (h : d ∈ lowercaseAfter before t) :
    lowercaseChar d = [d] := by
  induction t generalizing before with
  | nil => simp at h
  | cons c t ih =>
    rw [lowercaseAfter_cons, List.mem_append] at h
    rcases h with h | h
    · rcases mem_lowercaseAmid h with h | ⟨-, rfl | rfl⟩
      · exact lowercaseChar_of_mem h
      · exact table_sound.2.2.2.1
      · exact table_sound.2.2.2.2.1
    · exact ih h

theorem lowercaseAfter_of_forall {before t : Text} (h : ∀ c ∈ t, lowercaseChar c = [c]) :
    lowercaseAfter before t = t := by
  induction t generalizing before with
  | nil => rfl
  | cons c t ih =>
    rw [lowercaseAfter_cons, lowercaseAmid_of_lowercaseChar (h c (by simp)),
      ih fun d hd => h d (List.mem_cons_of_mem _ hd)]
    rfl

/-- **Lowering twice is lowering once**, whatever stood around the sigmas. -/
@[simp] theorem lowercase_lowercase (t : Text) : lowercase (lowercase t) = lowercase t :=
  lowercaseAfter_of_forall fun _ h => lowercaseChar_of_mem_lowercaseAfter h

@[simp] theorem lowercaseAfter_eq_nil {before t : Text} : lowercaseAfter before t = [] ↔ t = [] := by
  cases t with
  | nil => simp
  | cons c t => simp [lowercaseAfter_cons, lowercaseAmid_ne_nil]

@[simp] theorem lowercase_eq_nil {t : Text} : lowercase t = [] ↔ t = [] := lowercaseAfter_eq_nil

/-! ## separators in lowercase texts -/

section Separators

variable {p : Char → Bool} (hp : ∀ c, p c = true → isSeparator c = true)
include hp

theorem apply_of_mem_lowercaseAmid {before after : Text} {c d : Char} (h : d ∈ lowercaseAmid before c after) :
    p d = p c := by
  by_cases hd : p d = true
  · rw [isSeparator_of_mem_lowercaseAmid h (hp d hd)]
  · by_cases hc : p c = true
    · rw [lowercaseAmid_of_lowercaseChar (lowercaseChar_of_isSeparator (hp c hc)), List.mem_singleton] at h
      rw [h]
    · simp_all

theorem any_lowercaseAfter (before t : Text) : (lowercaseAfter before t).any p = t.any p := by
  induction t generalizing before with
  | nil => rfl
  | cons c t ih =>
    have hany : (lowercaseAmid before c t).any p = p c := by
      cases hc : p c with
      | true =>
        obtain ⟨d, hd⟩ := List.exists_mem_of_ne_nil _ (lowercaseAmid_ne_nil before c t)
        exact List.any_eq_true.2 ⟨d, hd, by rw [apply_of_mem_lowercaseAmid hp hd, hc]⟩
      | false => exact List.any_eq_false.2 fun d hd => by simp [apply_of_mem_lowercaseAmid hp hd, hc]
    rw [lowercaseAfter_cons, List.any_append, hany, ih, List.any_cons]

theorem head?_lowercaseAfter (before t : Text) :
    ((lowercaseAfter before t).head?.map p) = t.head?.map p := by
  cases t with
  | nil => rfl
  | cons c t =>
    obtain ⟨d, l, hl⟩ := List.exists_cons_of_ne_nil (lowercaseAmid_ne_nil before c t)
    have hmem : d ∈ lowercaseAmid before c t := by simp [hl]
    have hd : p d = p c := apply_of_mem_lowercaseAmid hp hmem
    simp [lowercaseAfter_cons, hl, hd]

theorem getLast?_lowercaseAfter (before t : Text) :
    ((lowercaseAfter before t).getLast?.map p) = t.getLast?.map p := by
  induction t generalizing before with
  | nil => rfl
  | cons c t ih =>
    rw [lowercaseAfter_cons]
    cases t with
    | nil =>
      have hne := lowercaseAmid_ne_nil before c []
      have hd : p ((lowercaseAmid before c []).getLast hne) = p c :=
        apply_of_mem_lowercaseAmid hp (List.getLast_mem hne)
      simp [List.getLast?_eq_some_getLast hne, hd]
    | cons d t =>
      have hne : lowercaseAfter (c :: before) (d :: t) ≠ [] := by simp
      rw [List.getLast?_append, List.getLast?_eq_some_getLast hne, Option.some_or, ← List.getLast?_eq_some_getLast hne,
        ih]
      simp

/-- The rest from the first separator of a class on is the lowercase form of the rest. -/
theorem dropWhile_lowercaseAfter (before t : Text) :
    ∃ before', (lowercaseAfter before t).dropWhile (fun c => !p c) =
      lowercaseAfter before' (t.dropWhile fun c => !p c) := by
  induction t generalizing before with
  | nil => exact ⟨before, rfl⟩
  | cons c t ih =>
    by_cases hc : p c = true
    · have hsep : lowercaseAmid before c t = [c] :=
        lowercaseAmid_of_lowercaseChar (lowercaseChar_of_isSeparator (hp c hc))
      refine ⟨before, ?_⟩
      rw [List.dropWhile_cons_of_neg (by simp [hc]), lowercaseAfter_cons, hsep, List.singleton_append,
        List.dropWhile_cons_of_neg (by simp [hc])]
    · obtain ⟨before', ih⟩ := ih (c :: before)
      refine ⟨before', ?_⟩
      rw [List.dropWhile_cons_of_pos (by simp [hc]), lowercaseAfter_cons, List.dropWhile_append_of_pos, ih]
      intro d hd
      simp [apply_of_mem_lowercaseAmid hp hd, hc]

end Separators

theorem count_lowercaseAfter {d : Char} (hd : isSeparator d = true) (before t : Text) :
    (lowercaseAfter before t).count d = t.count d := by
  induction t generalizing before with
  | nil => rfl
  | cons c t ih =>
    have hcount : (lowercaseAmid before c t).count d = [c].count d := by
      by_cases hc : c = d
      · rw [hc, lowercaseAmid_of_lowercaseChar (lowercaseChar_of_isSeparator hd)]
      · rw [List.count_eq_zero_of_not_mem, List.count_eq_zero_of_not_mem]
        · simpa using Ne.symm hc
        · exact fun h => hc (isSeparator_of_mem_lowercaseAmid h hd).symm
    rw [lowercaseAfter_cons, List.count_append, hcount, ih, ← List.count_append]
    rfl

/-! ## parts of a text -/

/-- Every capital sigma of a part is final, by itself, exactly if it is final in the text that the part stands in; the text
before is given backwards, once as what is known and once as it is. -/
def SigmasAgree (known before part after : Text) : Prop :=
  ∀ a b, part = a ++ 'Σ' :: b →
    (startsCased (a.reverse ++ known) && !startsCased b) = (startsCased (a.reverse ++ before) && !startsCased (b ++ after))

theorem sigmasAgree_nil (known before after : Text) : SigmasAgree known before [] after := by
  intro a b hab
  exact absurd hab.symm (List.append_ne_nil_of_right_ne_nil a (List.cons_ne_nil _ _))

theorem sigmasAgree_cons_iff {known before part after : Text} {c : Char} :
    SigmasAgree known before (c :: part) after ↔
      (c = 'Σ' → (startsCased known && !startsCased part) = (startsCased before && !startsCased (part ++ after))) ∧
      SigmasAgree (c :: known) (c :: before) part after := by
  constructor
  · intro h
    refine ⟨fun hc => h [] part (by rw [hc]; rfl), ?_⟩
    intro a b hab
    have hcons := h (c :: a) b (by rw [hab]; rfl)
    rwa [List.reverse_cons, List.append_assoc, List.append_assoc] at hcons
  · rintro ⟨hhead, htail⟩ a b hab
    cases a with
    | nil =>
      obtain ⟨hc, rfl⟩ := List.cons.inj hab
      exact hhead hc
    | cons d a =>
      obtain ⟨rfl, hrest⟩ := List.cons.inj hab
      rw [List.reverse_cons, List.append_assoc, List.append_assoc]
      exact htail a b hrest

instance decidableSigmasAgree : (known before part after : Text) → Decidable (SigmasAgree known before part after)
  | known, before, [], after => isTrue (sigmasAgree_nil known before after)
  | known, before, c :: part, after =>
    have := decidableSigmasAgree (c :: known) (c :: before) part after
    decidable_of_iff _ sigmasAgree_cons_iff.symm

theorem sigmasAgree_of_not_mem {known before part after : Text} (h : 'Σ' ∉ part) :
    SigmasAgree known before part after := by
  intro a b hab
  exact absurd (by rw [hab]; exact List.mem_append_right a List.mem_cons_self) h

theorem exists_lowercaseAfter_append (before s t : Text) :
    ∃ l, lowercaseAfter before (s ++ t) = l ++ lowercaseAfter (s.reverse ++ before) t := by
  induction s generalizing before with
  | nil => exact ⟨[], rfl⟩
  | cons c s ih =>
    obtain ⟨l, hl⟩ := ih (c :: before)
    refine ⟨lowercaseAmid before c (s ++ t) ++ l, ?_⟩
    rw [List.cons_append, lowercaseAfter_cons, hl, List.append_assoc, List.reverse_cons, List.append_assoc]
    rfl

/-- If the sigmas agree, a part is lowered in its place as it is by itself. -/
theorem lowercaseAfter_append {known before part after : Text} (h : SigmasAgree known before part after) :
    lowercaseAfter before (part ++ after) = lowercaseAfter known part ++ lowercaseAfter (part.reverse ++ before) after := by
  induction part generalizing known before with
  | nil => rfl
  | cons c part ih =>
    obtain ⟨hfinal, htail⟩ := sigmasAgree_cons_iff.1 h
    have hhead : lowercaseAmid before c (part ++ after) = lowercaseAmid known c part := by
      unfold lowercaseAmid
      split
      · next hc => rw [hfinal hc]
      · rfl
    rw [List.cons_append, lowercaseAfter_cons, lowercaseAfter_cons, hhead, ih htail, List.append_assoc,
      List.reverse_cons, List.append_assoc]
    rfl

/-- **The lowercase form of a part occurs in that of the text**, if the sigmas agree. -/
theorem lowercase_infix {before part after : Text} (h : SigmasAgree [] before.reverse part after) :
    lowercase part <:+: lowercase (before ++ part ++ after) := by
  obtain ⟨l, hl⟩ := exists_lowercaseAfter_append [] before (part ++ after)
  rw [List.append_nil, lowercaseAfter_append h] at hl
  refine ⟨l, lowercaseAfter (part.reverse ++ before.reverse) after, ?_⟩
  rw [lowercase, lowercase, List.append_assoc, List.append_assoc, hl]

/-! ## ASCII capitals -/

theorem lowercaseChar_of_lt {c : Char} (h : c.toNat < 128) : lowercaseChar c = [c.toLower] := by
  have htable : ∀ n < 128, lowercaseChar (Char.ofNat n) = [(Char.ofNat n).toLower] := by decide +kernel
  have hc := htable c.toNat h
  rwa [Char.ofNat_toNat] at hc

theorem toLower_of_le {c : Char} (h : 128 ≤ c.toNat) : c.toLower = c := by
  unfold Char.toLower
  split
  · next hc =>
    have hle : c.toNat ≤ 90 := UInt32.le_iff_toNat_le.1 hc.2
    omega
  · rfl

theorem toLower_of_lowercaseChar {c : Char} (h : lowercaseChar c = [c]) : c.toLower = c := by
  by_cases hc : c.toNat < 128
  · rw [lowercaseChar_of_lt hc] at h
    exact List.singleton_inj.1 h
  · exact toLower_of_le (Nat.le_of_not_lt hc)

@[simp] theorem asciiLowercase_lowercase (t : Text) : asciiLowercase (lowercase t) = lowercase t := by
  have hid : (lowercase t).map Char.toLower = (lowercase t).map id :=
    List.map_congr_left fun c hc => toLower_of_lowercaseChar (lowercaseChar_of_mem_lowercaseAfter hc)
  rw [asciiLowercase, hid, List.map_id]

theorem lowercaseAfter_eq_asciiLowercase {t : Text} (h : ∀ c ∈ asciiLowercase t, lowercaseChar c = [c]) (before : Text) :
    lowercaseAfter before t = asciiLowercase t := by
  induction t generalizing before with
  | nil => rfl
  | cons c t ih =>
    obtain ⟨hc, ht⟩ : lowercaseChar c.toLower = [c.toLower] ∧ ∀ d ∈ asciiLowercase t, lowercaseChar d = [d] :=
      List.forall_mem_cons.1 h
    have hhead : lowercaseAmid before c t = [c.toLower] := by
      by_cases hlt : c.toNat < 128
      · have hsigma : c ≠ 'Σ' := by
          rintro rfl
          exact absurd hlt (by decide)
        rw [lowercaseAmid, if_neg hsigma, lowercaseChar_of_lt hlt]
      · rw [toLower_of_le (Nat.le_of_not_lt hlt)] at hc ⊢
        exact lowercaseAmid_of_lowercaseChar hc
    rw [lowercaseAfter_cons, hhead, ih ht]
    rfl

/-- **Where lowering the ASCII capitals leaves no capital**, there were no others. -/
theorem lowercase_eq_asciiLowercase {t : Text} (h : ∀ c ∈ asciiLowercase t, lowercaseChar c = [c]) :
    lowercase t = asciiLowercase t :=
  lowercaseAfter_eq_asciiLowercase h []

theorem length_le_lowercaseAfter (before t : Text) : t.length ≤ (lowercaseAfter before t).length := by
  induction t generalizing before with
  | nil => simp
  | cons c t ih =>
    have hc : 0 < (lowercaseAmid before c t).length := List.length_pos_iff.2 (lowercaseAmid_ne_nil before c t)
    have ht := ih (c :: before)
    rw [lowercaseAfter_cons, List.length_append, List.length_cons]
    omega

end ContentSearch.Text
