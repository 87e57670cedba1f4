import ContentSearch.Text.Whitespace

/-!
# Cutting texts and putting them together

* `words_joinWith`: words with spaces between them are the words of what they make up;
* `flatten_words`: the words of a text hold all of it save the white space;
* `splitFirst?_eq_some_iff`: a text is split at the first separator;
* `trim_eq_self_iff`: a text is trimmed when it neither starts nor ends with white space.
-/

namespace ContentSearch.Text

/-! ## pieces -/

theorem splitOn_ne_nil (p : Char → Bool) (t : Text) : splitOn p t ≠ [] := by
  cases t with
  | nil => simp [splitOn]
  | cons c t =>
    unfold splitOn
    split
    · simp
    · split <;> simp

theorem splitOn_cons_of_pos {p : Char → Bool} {c : Char} (h : p c = true) (t : Text) :
    splitOn p (c :: t) = [] :: splitOn p t := by
  rw [splitOn, if_pos h]

theorem splitOn_cons_of_neg {p : Char → Bool} {c : Char} (h : p c = false) {t w : Text} {ws : List Text}
    (ht : splitOn p t = w :: ws) : splitOn p (c :: t) = (c :: w) :: ws := by
  rw [splitOn, if_neg (by simp [h]), ht]

theorem splitOn_append {p : Char → Bool} {a : Text} (h : ∀ c ∈ a, p c = false) {t w : Text} {ws : List Text}
    (ht : splitOn p t = w :: ws) : splitOn p (a ++ t) = (a ++ w) :: ws := by
  induction a with
  | nil => exact ht
  | cons c a ih => exact splitOn_cons_of_neg (h c (by simp)) (ih fun d hd => h d (List.mem_cons_of_mem _ hd))

theorem splitOn_of_forall {p : Char → Bool} {a : Text} (h : ∀ c ∈ a, p c = false) : splitOn p a = [a] := by
  simpa using splitOn_append h (t := []) rfl

theorem splitOn_append_cons {p : Char → Bool} {a : Text} (h : ∀ c ∈ a, p c = false) {d : Char} (hd : p d = true)
    (t : Text) : splitOn p (a ++ d :: t) = a :: splitOn p t := by
  simpa using splitOn_append h (splitOn_cons_of_pos hd t)

theorem splitOn_append_separator {p : Char → Bool} {d : Char} (hd : p d = true) (s t : Text) :
    splitOn p (s ++ d :: t) = splitOn p s ++ splitOn p t := by
  induction s with
  | nil => exact splitOn_append_cons (by simp) hd t
  | cons c s ih =>
    cases hc : p c with
    | true => rw [List.cons_append, splitOn_cons_of_pos hc, splitOn_cons_of_pos hc, ih, List.cons_append]
    | false =>
      obtain ⟨w, ws, hws⟩ := List.exists_cons_of_ne_nil (splitOn_ne_nil p s)
      rw [hws] at ih
      rw [List.cons_append, splitOn_cons_of_neg hc ih, splitOn_cons_of_neg hc hws]
      rfl

theorem apply_of_mem_splitOn {p : Char → Bool} {t w : Text} (hw : w ∈ splitOn p t) {c : Char} (hc : c ∈ w) :
    p c = false := by
  induction t generalizing w with
  | nil =>
    rw [splitOn, List.mem_singleton] at hw
    simp [hw] at hc
  | cons d t ih =>
    cases hd : p d with
    | true =>
      rw [splitOn_cons_of_pos hd, List.mem_cons] at hw
      rcases hw with rfl | hw
      · simp at hc
      · exact ih hw hc
    | false =>
      obtain ⟨v, vs, hvs⟩ := List.exists_cons_of_ne_nil (splitOn_ne_nil p t)
      rw [splitOn_cons_of_neg hd hvs, List.mem_cons] at hw
      rcases hw with rfl | hw
      · rcases List.mem_cons.1 hc with rfl | hc
        · exact hd
        · exact ih (by simp [hvs]) hc
      · exact ih (by simp [hvs, hw]) hc

theorem flatten_splitOn (p : Char → Bool) (t : Text) : (splitOn p t).flatten = t.filter fun c => !p c := by
  induction t with
  | nil => rfl
  | cons c t ih =>
    cases hc : p c with
    | true => simp [splitOn_cons_of_pos hc, ih, hc]
    | false =>
      obtain ⟨w, ws, hws⟩ := List.exists_cons_of_ne_nil (splitOn_ne_nil p t)
      rw [hws] at ih
      simp [splitOn_cons_of_neg hc hws, ← ih, hc]

/-! ## words -/

/-- A text that stands between white space. -/
def IsWord (t : Text) : Prop := t ≠ [] ∧ ∀ c ∈ t, isBlank c = false

theorem isWord_of_mem_words {t w : Text} (h : w ∈ words t) : IsWord w := by
  unfold words at h
  obtain ⟨hw, hne⟩ := List.mem_filter.1 h
  exact ⟨by simpa using hne, fun c hc => apply_of_mem_splitOn hw hc⟩

theorem flatten_words (t : Text) : (words t).flatten = t.filter fun c => !isBlank c := by
  rw [← flatten_splitOn]
  unfold words
  induction splitOn isBlank t with
  | nil => rfl
  | cons w ws ih => cases w <;> simp [ih]

@[simp] theorem words_nil : words [] = [] := rfl

theorem words_cons_of_isBlank {c : Char} (h : isBlank c = true) (t : Text) : words (c :: t) = words t := by
  simp [words, splitOn_cons_of_pos h]

theorem words_append_cons {w : Text} (hw : IsWord w) {d : Char} (hd : isBlank d = true) (t : Text) :
    words (w ++ d :: t) = w :: words t := by
  simp [words, splitOn_append_cons hw.2 hd, hw.1]

theorem words_of_isWord {w : Text} (hw : IsWord w) : words w = [w] := by
  simp [words, splitOn_of_forall hw.2, hw.1]

/-! ## texts with a separator between them -/

@[simp] theorem joinWith_nil (sep : Text) : joinWith sep [] = [] := rfl

@[simp] theorem joinWith_singleton (sep t : Text) : joinWith sep [t] = t := by
  simp [joinWith]

theorem joinWith_cons_cons (sep a b : Text) (l : List Text) :
    joinWith sep (a :: b :: l) = a ++ sep ++ joinWith sep (b :: l) := by
  simp [joinWith, List.intercalate_cons_cons]

theorem words_joinWith {l : List Text} (h : ∀ w ∈ l, IsWord w) : words (joinWith [' '] l) = l := by
  induction l with
  | nil => rfl
  | cons a l ih =>
    have ih := ih fun w hw => h w (List.mem_cons_of_mem _ hw)
    cases l with
    | nil => rw [joinWith_singleton, words_of_isWord (h a (by simp))]
    | cons b l =>
      rw [joinWith_cons_cons, List.append_assoc, List.singleton_append,
        words_append_cons (h a (by simp)) (by decide), ih]

theorem count_joinWith {d : Char} (hd : d ≠ ' ') (l : List Text) :
    (joinWith [' '] l).count d = l.flatten.count d := by
  induction l with
  | nil => rfl
  | cons a l ih =>
    cases l with
    | nil => simp
    | cons b l => rw [joinWith_cons_cons, List.flatten_cons, List.count_append, List.count_append, ih,
        List.count_append, List.count_cons_of_ne (Ne.symm hd), List.count_nil, Nat.add_zero]

/-! ## the first separator -/

theorem splitFirst?_eq_some_iff {sep : Char} {t a b : Text} :
    splitFirst? sep t = some (a, b) ↔ t = a ++ sep :: b ∧ sep ∉ a := by
  induction t generalizing a with
  | nil => simp [splitFirst?]
  | cons c t ih =>
    unfold splitFirst?
    split
    · next hc =>
      subst hc
      cases a with
      | nil => simp [eq_comm]
      | cons d a => simp_all
    · next hc =>
      cases a with
      | nil => simp_all
      | cons d a =>
        have hd : c = d → sep ≠ d := fun h hs => hc (h.trans hs.symm)
        simp only [Option.map_eq_some_iff, Prod.mk.injEq, List.cons.injEq, Prod.exists, List.cons_append,
          List.mem_cons, not_or]
        constructor
        · rintro ⟨a', b', h, ⟨rfl, rfl⟩, rfl⟩
          exact ⟨⟨rfl, (ih.1 h).1⟩, hd rfl, (ih.1 h).2⟩
        · rintro ⟨⟨rfl, h⟩, -, hs⟩
          exact ⟨a, b, ih.2 ⟨h, hs⟩, ⟨rfl, rfl⟩, rfl⟩

theorem splitFirst?_eq_none_iff {sep : Char} {t : Text} : splitFirst? sep t = none ↔ sep ∉ t := by
  induction t with
  | nil => simp [splitFirst?]
  | cons c t ih =>
    unfold splitFirst?
    split
    · next hc => simp [hc]
    · next hc => simp [ih, Ne.symm hc]

/-! ## trimming -/

theorem trimStart_eq_self_iff {t : Text} : trimStart t = t ↔ ∀ c, t.head? = some c → isBlank c = false := by
  cases t with
  | nil => simp [trimStart]
  | cons c t =>
    cases hc : isBlank c with
    | true =>
      have hlen : (t.dropWhile isBlank).length < (c :: t).length :=
        Nat.lt_succ_of_le (List.dropWhile_suffix isBlank).length_le
      simp only [trimStart, List.dropWhile_cons_of_pos hc, List.head?_cons, Option.some.injEq]
      constructor
      · intro h
        rw [h] at hlen
        omega
      · intro h
        simp [h c rfl] at hc
    | false => simp [trimStart, hc]

theorem trim_eq_self_iff {t : Text} :
    trim t = t ↔ (∀ c, t.head? = some c → isBlank c = false) ∧ ∀ c, t.getLast? = some c → isBlank c = false := by
  have hend : ∀ u : Text, trimEnd u = u ↔ ∀ c, u.getLast? = some c → isBlank c = false := by
    intro u
    have h := trimStart_eq_self_iff (t := u.reverse)
    rw [List.head?_reverse] at h
    rw [← h]
    unfold trimEnd trimStart
    exact List.reverse_eq_iff
  have hlen : ∀ u : Text, (trimEnd u).length ≤ u.length := by
    intro u
    simpa [trimEnd] using (List.dropWhile_suffix (l := u.reverse) isBlank).length_le
  rw [← trimStart_eq_self_iff, ← hend]
  unfold trim
  constructor
  · intro h
    have hstart : trimStart t = t := by
      have h1 := hlen (trimStart t)
      rw [h] at h1
      exact (List.dropWhile_suffix isBlank).eq_of_length_le h1
    exact ⟨hstart, by rwa [hstart] at h⟩
  · rintro ⟨h1, h2⟩
    rw [h1, h2]

theorem isBlank_of_head?_trimStart {t : Text} {c : Char} (h : (trimStart t).head? = some c) : isBlank c = false := by
  have hnot := List.head?_dropWhile_not isBlank t
  unfold trimStart at h
  rw [h] at hnot
  simpa using hnot

@[simp] theorem trim_trim (t : Text) : trim (trim t) = trim t := by
  have hrev : trim t = (trimStart (trimStart t).reverse).reverse := rfl
  rw [trim_eq_self_iff]
  constructor
  · intro c hc
    obtain ⟨u, hu⟩ : trim t <+: trimStart t := by
      rw [hrev, ← List.reverse_suffix, List.reverse_reverse]
      exact List.dropWhile_suffix isBlank
    refine isBlank_of_head?_trimStart (t := t) ?_
    rw [← hu, List.head?_append, hc, Option.some_or]
  · intro c hc
    rw [hrev, List.getLast?_reverse] at hc
    exact isBlank_of_head?_trimStart hc

theorem mem_of_mem_trim {t : Text} {c : Char} (h : c ∈ trim t) : c ∈ t := by
  unfold trim trimEnd trimStart at h
  rw [List.mem_reverse] at h
  have h := (List.dropWhile_suffix isBlank).subset h
  rw [List.mem_reverse] at h
  exact (List.dropWhile_suffix isBlank).subset h

end ContentSearch.Text
