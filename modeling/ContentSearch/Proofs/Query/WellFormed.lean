import ContentSearch.Query.Printer
import ContentSearch.Proofs.Text.Lowercase
import ContentSearch.Proofs.Text.Splitting
import Mathlib.Data.List.Basic

/-!
# Well-formed queries

* `Token.Valid`: what a token can ask for; `Token.ofText_render` reads every such token back from its text;
* `Query.WellFormed`: what a query that was read from text looks like;
* `parse_wellFormed`: reading gives nothing else.

The one subtle part is the quotes: reading leaves at most one double quote outside the phrases, because two would have
quoted what stands between them.
-/

namespace ContentSearch.Query

/-! ## the parts of a query -/

/-- A lowercase text that stands between white space. -/
def IsLowerWord (t : Text) : Prop := Text.IsWord t ∧ Text.lowercase t = t

/-- A lowercase word that is neither an exclusion nor a filter. -/
structure IsTerm (t : Text) : Prop where
  lowerWord : IsLowerWord t
  not_dashed : ∀ u, t = '-' :: u → u = []
  not_filter : ∀ a b, t = a ++ ':' :: b → ':' ∉ a → a = [] ∨ b = []

/-- A lowercase text that can stand between quotes. -/
structure IsPhrase (t : Text) : Prop where
  ne_nil : t ≠ []
  trimmed : Text.trim t = t
  not_quoted : '"' ∉ t
  lower : Text.lowercase t = t

/-- A lowercase word that can stand before the colon of a filter. -/
structure IsFilterName (t : Text) : Prop where
  lowerWord : IsLowerWord t
  not_colon : ':' ∉ t
  not_dashed : ∀ u, t ≠ '-' :: u

namespace Token

def render : Token → Text
  | .term t => t
  | .exclusion t => '-' :: t
  | .filter name value => name ++ ':' :: value

/-- What a token that was read from text asks for. -/
def Valid : Token → Prop
  | .term t => IsTerm t
  | .exclusion t => IsLowerWord t
  | .filter name value => IsFilterName name ∧ IsLowerWord value

end Token

/-- The filters of the entries of a dictionary, one for each value. -/
def filterTokens (l : List (Text × List Text)) : List Token := l.flatMap fun e => e.2.map (.filter e.1)

/-- What a query asks for outside its phrases, in the order in which it is written. -/
def tokens (q : Query) : List Token :=
  q.terms.map .term ++ q.exclusions.map .exclusion ++ filterTokens q.filters.toList

def quotesIn (l : List Token) : Nat := (l.map Token.render).flatten.count '"'

/-- Every part of the query can be read from text, and none is repeated. -/
structure Valid (q : Query) : Prop where
  terms : ∀ t ∈ q.terms, IsTerm t
  phrases : ∀ t ∈ q.phrases, IsPhrase t
  exclusions : ∀ t ∈ q.exclusions, IsLowerWord t
  filters : ∀ e ∈ q.filters.toList, IsFilterName e.1 ∧ e.2 ≠ [] ∧ e.2.Nodup ∧ ∀ v ∈ e.2, IsLowerWord v
  terms_nodup : q.terms.Nodup
  phrases_nodup : q.phrases.Nodup
  exclusions_nodup : q.exclusions.Nodup

/-- **What a query that was read from text looks like.** -/
structure WellFormed (q : Query) : Prop extends Valid q where
  quotes : quotesIn q.tokens ≤ 1
  filterOnly : q.filterOnly = true ↔ q.terms = [] ∧ q.phrases = []

theorem Valid.of_mem_tokens {q : Query} (h : q.Valid) {k : Token} (hk : k ∈ q.tokens) : k.Valid := by
  unfold tokens at hk
  rcases List.mem_append.1 hk with hk | hk
  · rcases List.mem_append.1 hk with hk | hk
    · obtain ⟨t, ht, rfl⟩ := List.mem_map.1 hk
      exact h.terms t ht
    · obtain ⟨t, ht, rfl⟩ := List.mem_map.1 hk
      exact h.exclusions t ht
  · obtain ⟨e, he, hk⟩ := List.mem_flatMap.1 hk
    obtain ⟨v, hv, rfl⟩ := List.mem_map.1 hk
    obtain ⟨hname, -, -, hvalues⟩ := h.filters e he
    exact ⟨hname, hvalues v hv⟩

/-! ## reading a token -/

theorem isLowerWord_lowercase {t : Text} (h : Text.IsWord t) : IsLowerWord (Text.lowercase t) := by
  refine ⟨⟨by simpa using h.1, fun c hc => ?_⟩, by simp⟩
  have hany : (Text.lowercase t).any Text.isBlank = t.any Text.isBlank :=
    Text.any_lowercaseAfter (fun _ => Text.isSeparator_of_isBlank) [] t
  have hno : t.any Text.isBlank = false := List.any_eq_false.2 fun d hd => by simp [h.2 d hd]
  rw [hno] at hany
  simpa using List.any_eq_false.1 hany c hc

theorem mem_lowercase_iff {d : Char} (hd : Text.isSeparator d = true) {t : Text} : d ∈ Text.lowercase t ↔ d ∈ t := by
  rw [← List.count_pos_iff, ← List.count_pos_iff, Text.lowercase, Text.count_lowercaseAfter hd]

theorem dashed_of_lowercase {t u : Text} (h : Text.lowercase t = '-' :: u) :
    ∃ v, t = '-' :: v ∧ (u ≠ [] → v ≠ []) := by
  have hhead := Text.head?_lowercaseAfter (Text.isSeparator_of_beq (d := '-') (by decide)) [] t
  have hlower : Text.lowercaseAfter [] t = '-' :: u := h
  rw [hlower] at hhead
  cases t with
  | nil => simp at hhead
  | cons c t =>
    obtain rfl : c = '-' := by simpa using hhead.symm
    refine ⟨t, rfl, ?_⟩
    rintro hu rfl
    have hdash : Text.lowercase ['-'] = ['-'] := by
      refine Text.lowercaseAfter_of_forall fun c hc => ?_
      rw [List.mem_singleton.1 hc]
      exact Text.lowercaseChar_of_isSeparator (by decide)
    rw [hdash] at h
    exact hu (by simpa using h.symm)

/-- A lowercase text is cut at its first colon where the text is. -/
theorem filter_of_lowercase {t a b : Text} (h : Text.lowercase t = a ++ ':' :: b) (ha : ':' ∉ a) :
    ∃ a' b', t = a' ++ ':' :: b' ∧ ':' ∉ a' ∧ (a ≠ [] → a' ≠ []) ∧ (b ≠ [] → b' ≠ []) := by
  have hp := Text.isSeparator_of_beq (d := ':') (by decide)
  have hmem : ':' ∈ t := (mem_lowercase_iff (by decide)).1 (by simp [h])
  obtain ⟨a', b', rfl, ha'⟩ := List.eq_append_cons_of_mem hmem
  refine ⟨a', b', rfl, ha', ?_, ?_⟩
  · rintro hne rfl
    have hhead := Text.head?_lowercaseAfter hp [] (':' :: b')
    have hlower : Text.lowercaseAfter [] (':' :: b') = a ++ ':' :: b := h
    rw [hlower] at hhead
    cases a with
    | nil => exact hne rfl
    | cons c a => simp_all
  · rintro hne rfl
    obtain ⟨before, hdrop⟩ := Text.dropWhile_lowercaseAfter hp [] (a' ++ [':'])
    have hlower : Text.lowercaseAfter [] (a' ++ [':']) = a ++ ':' :: b := h
    have hskip : ∀ {l : Text} (m : Text), ':' ∉ l → (l ++ ':' :: m).dropWhile (fun c => !(c == ':')) = ':' :: m := by
      intro l m hl
      rw [List.dropWhile_append_of_pos, List.dropWhile_cons_of_neg (by simp)]
      intro c hc
      simp only [Bool.not_eq_true', beq_eq_false_iff_ne]
      rintro rfl
      exact hl hc
    have hcolon : Text.lowercaseAfter before [':'] = [':'] := by
      refine Text.lowercaseAfter_of_forall fun c hc => ?_
      rw [List.mem_singleton.1 hc]
      exact Text.lowercaseChar_of_isSeparator (by decide)
    rw [hlower, hskip b ha, hskip [] ha', hcolon] at hdrop
    exact hne (by simpa using hdrop)

theorem Token.ofPlain_valid {w : Text} (hw : Text.IsWord w) (hdash : ∀ u, w = '-' :: u → u = []) :
    (Token.ofPlain w).Valid := by
  have hterm : (∀ a b, w = a ++ ':' :: b → ':' ∉ a → a = [] ∨ b = []) → IsTerm (Text.lowercase w) := by
    intro hcolon
    refine ⟨isLowerWord_lowercase hw, ?_, ?_⟩
    · intro u hu
      obtain ⟨v, hv, hne⟩ := dashed_of_lowercase hu
      by_contra hu'
      exact hne hu' (hdash v hv)
    · intro a b hab ha
      obtain ⟨a', b', hw', ha', hna, hnb⟩ := filter_of_lowercase hab ha
      by_contra hne
      rw [not_or] at hne
      rcases hcolon a' b' hw' ha' with h | h
      · exact hna hne.1 h
      · exact hnb hne.2 h
  unfold Token.ofPlain
  split
  · next name value h =>
    obtain ⟨rfl, hname⟩ := Text.splitFirst?_eq_some_iff.1 h
    split
    · next hempty =>
      refine hterm fun a b hab ha => ?_
      have hsame := Text.splitFirst?_eq_some_iff.2 ⟨hab, ha⟩
      rw [h] at hsame
      obtain ⟨rfl, rfl⟩ : name = a ∧ value = b := by simpa using hsame
      simpa using hempty
    · next hempty =>
      simp only [Bool.or_eq_true, List.isEmpty_iff, not_or] at hempty
      have hn : Text.IsWord name := ⟨hempty.1, fun c hc => hw.2 c (by simp [hc])⟩
      have hv : Text.IsWord value := ⟨hempty.2, fun c hc => hw.2 c (by simp [hc])⟩
      refine ⟨⟨isLowerWord_lowercase hn, ?_, ?_⟩, isLowerWord_lowercase hv⟩
      · rwa [mem_lowercase_iff (by decide)]
      · intro u hu
        obtain ⟨v, rfl, -⟩ := dashed_of_lowercase hu
        exact absurd (hdash (v ++ ':' :: value) rfl) (by simp)
  · next h =>
    have hno := Text.splitFirst?_eq_none_iff.1 h
    exact hterm fun a b hab _ => absurd (by simp [hab]) hno

theorem Token.ofText_valid {w : Text} (hw : Text.IsWord w) : (Token.ofText w).Valid := by
  unfold Token.ofText
  split
  · next c t =>
    exact isLowerWord_lowercase ⟨by simp, fun d hd => hw.2 d (List.mem_cons_of_mem _ hd)⟩
  · next h =>
    refine Token.ofPlain_valid hw fun u hu => ?_
    cases u with
    | nil => rfl
    | cons c u => exact absurd hu (h c u)

theorem Token.count_render_ofText (w : Text) : (Token.ofText w).render.count '"' = w.count '"' := by
  have hlower : ∀ t : Text, (Text.lowercase t).count '"' = t.count '"' := Text.count_lowercaseAfter (by decide) []
  have hplain : (Token.ofPlain w).render.count '"' = w.count '"' := by
    unfold Token.ofPlain
    split
    · next name value h =>
      obtain ⟨rfl, -⟩ := Text.splitFirst?_eq_some_iff.1 h
      split
      · exact hlower _
      · simp [Token.render, hlower]
    · exact hlower _
  unfold Token.ofText
  split
  · simp [Token.render, hlower]
  · exact hplain

/-! ## lists without repetition -/

@[simp] theorem mem_pushUnique {l : List Text} {t u : Text} : u ∈ pushUnique l t ↔ u ∈ l ∨ u = t := by
  unfold pushUnique
  split
  · next h => exact ⟨Or.inl, fun hu => hu.elim id fun hu => hu ▸ h⟩
  · simp

theorem nodup_pushUnique {l : List Text} (h : l.Nodup) (t : Text) : (pushUnique l t).Nodup := by
  unfold pushUnique
  split
  · exact h
  · next ht =>
    refine List.nodup_append.2 ⟨h, by simp, ?_⟩
    intro a ha b hb hab
    rw [List.mem_singleton.1 hb] at hab
    exact ht (hab ▸ ha)

theorem pushUnique_ne_nil (l : List Text) (t : Text) : pushUnique l t ≠ [] :=
  List.ne_nil_of_mem (mem_pushUnique.2 (Or.inr rfl))

/-! ## the quotes of tokens -/

@[simp] theorem quotesIn_nil : quotesIn [] = 0 := rfl

@[simp] theorem quotesIn_cons (k : Token) (l : List Token) : quotesIn (k :: l) = k.render.count '"' + quotesIn l := by
  simp [quotesIn]

@[simp] theorem quotesIn_append (l m : List Token) : quotesIn (l ++ m) = quotesIn l + quotesIn m := by
  simp [quotesIn]

theorem quotesIn_pushUnique_le (f : Text → Token) (l : List Text) (t : Text) :
    quotesIn ((pushUnique l t).map f) ≤ quotesIn (l.map f) + (f t).render.count '"' := by
  unfold pushUnique
  split
  · omega
  · simp

theorem quotesIn_alterEntries_le (name value : Text) (l : List (Text × List Text)) :
    quotesIn (filterTokens (Dictionary.alterEntries name (fun values => pushUnique (values.getD []) value) l)) ≤
      quotesIn (filterTokens l) + (Token.filter name value).render.count '"' := by
  induction l with
  | nil => simp [Dictionary.alterEntries, filterTokens, pushUnique]
  | cons e l ih =>
    obtain ⟨k, vs⟩ := e
    unfold Dictionary.alterEntries
    split
    · simp only [filterTokens, List.flatMap_cons, Option.getD_none, quotesIn_append]
      have h := quotesIn_pushUnique_le (Token.filter name) [] value
      simp only [List.map_nil, quotesIn_nil] at h
      omega
    · split
      · next h =>
        subst h
        have h := quotesIn_pushUnique_le (Token.filter name) vs value
        simp only [filterTokens, List.flatMap_cons, Option.getD_some, quotesIn_append]
        omega
      · simp only [filterTokens, List.flatMap_cons, quotesIn_append] at ih ⊢
        omega

theorem quotesIn_addToken_le (q : Query) (k : Token) :
    quotesIn (q.addToken k).tokens ≤ quotesIn q.tokens + k.render.count '"' := by
  cases k with
  | term t =>
    have h := quotesIn_pushUnique_le Token.term q.terms t
    simp only [addToken, tokens, quotesIn_append]
    omega
  | exclusion t =>
    have h := quotesIn_pushUnique_le Token.exclusion q.exclusions t
    simp only [addToken, tokens, quotesIn_append]
    omega
  | filter name value =>
    have h := quotesIn_alterEntries_le name value q.filters.entries
    simp only [addToken, tokens, quotesIn_append, Dictionary.toList, Dictionary.alter]
    omega

/-! ## reading a query -/

theorem mem_alterEntries_cases {α : Type} {key : Text} {f : Option α → α} {l : List (Text × α)} {e : Text × α}
    (h : e ∈ Dictionary.alterEntries key f l) :
    e ∈ l ∨ e = (key, f none) ∨ ∃ v, (key, v) ∈ l ∧ e = (key, f (some v)) := by
  induction l with
  | nil => exact Or.inr (Or.inl (List.mem_singleton.1 h))
  | cons p l ih =>
    obtain ⟨k, v⟩ := p
    unfold Dictionary.alterEntries at h
    split at h
    · rcases List.mem_cons.1 h with h | h
      · exact Or.inr (Or.inl h)
      · exact Or.inl h
    · split at h
      · next hk =>
        subst hk
        rcases List.mem_cons.1 h with h | h
        · exact Or.inr (Or.inr ⟨v, by simp, h⟩)
        · exact Or.inl (List.mem_cons_of_mem _ h)
      · rcases List.mem_cons.1 h with h | h
        · exact Or.inl (by simp [h])
        · rcases ih h with h | h | ⟨w, hw, h⟩
          · exact Or.inl (List.mem_cons_of_mem _ h)
          · exact Or.inr (Or.inl h)
          · exact Or.inr (Or.inr ⟨w, List.mem_cons_of_mem _ hw, h⟩)

theorem valid_empty : empty.Valid := by
  constructor <;> simp [empty, Dictionary.toList, Dictionary.empty]

theorem Valid.addToken {q : Query} (h : q.Valid) {k : Token} (hk : k.Valid) : (q.addToken k).Valid := by
  cases k with
  | term t =>
    refine { h with terms := fun u hu => ?_, terms_nodup := nodup_pushUnique h.terms_nodup t }
    rcases mem_pushUnique.1 hu with hu | rfl
    · exact h.terms u hu
    · exact hk
  | exclusion t =>
    refine { h with exclusions := fun u hu => ?_, exclusions_nodup := nodup_pushUnique h.exclusions_nodup t }
    rcases mem_pushUnique.1 hu with hu | rfl
    · exact h.exclusions u hu
    · exact hk
  | filter name value =>
    obtain ⟨hname, hvalue⟩ := hk
    refine { h with filters := fun e he => ?_ }
    rcases mem_alterEntries_cases he with he | rfl | ⟨vs, hvs, rfl⟩
    · exact h.filters e he
    · refine ⟨hname, pushUnique_ne_nil [] value, nodup_pushUnique List.nodup_nil value, fun v hv => ?_⟩
      obtain rfl : v = value := by simpa using hv
      exact hvalue
    · obtain ⟨-, -, hnodup, hwords⟩ := h.filters _ hvs
      refine ⟨hname, pushUnique_ne_nil vs value, nodup_pushUnique hnodup value, fun v hv => ?_⟩
      rcases mem_pushUnique.1 hv with hv | rfl
      · exact hwords v hv
      · exact hvalue

theorem isPhrase_lowercase_trim {t : Text} (ht : '"' ∉ t) (hne : Text.lowercase (Text.trim t) ≠ []) :
    IsPhrase (Text.lowercase (Text.trim t)) := by
  refine ⟨hne, ?_, ?_, by simp⟩
  · have hp : ∀ c, Text.isBlank c = true → Text.isSeparator c = true := fun _ => Text.isSeparator_of_isBlank
    obtain ⟨hfirst, hlast⟩ := Text.trim_eq_self_iff.1 (Text.trim_trim t)
    refine Text.trim_eq_self_iff.2 ⟨fun c hc => ?_, fun c hc => ?_⟩
    · have h := Text.head?_lowercaseAfter hp [] (Text.trim t)
      unfold Text.lowercase at hc
      rw [hc] at h
      obtain ⟨d, hd, hcd⟩ := Option.map_eq_some_iff.1 h.symm
      rw [← hcd, hfirst d hd]
    · have h := Text.getLast?_lowercaseAfter hp [] (Text.trim t)
      unfold Text.lowercase at hc
      rw [hc] at h
      obtain ⟨d, hd, hcd⟩ := Option.map_eq_some_iff.1 h.symm
      rw [← hcd, hlast d hd]
  · rw [mem_lowercase_iff (by decide)]
    exact fun h => ht (Text.mem_of_mem_trim h)

theorem Valid.addQuotation {q : Query} (h : q.Valid) {t : Text} (ht : '"' ∉ t) : (q.addQuotation t).Valid := by
  unfold Query.addQuotation
  dsimp only
  split
  · exact h
  · next hne =>
    refine { h with phrases := fun u hu => ?_, phrases_nodup := nodup_pushUnique h.phrases_nodup _ }
    rcases mem_pushUnique.1 hu with hu | rfl
    · exact h.phrases u hu
    · exact isPhrase_lowercase_trim ht (by simpa using hne)

theorem tokens_addQuotation (q : Query) (t : Text) : (q.addQuotation t).tokens = q.tokens := by
  unfold Query.addQuotation
  dsimp only
  split <;> rfl

theorem foldl_addQuotation {l : List Text} (hl : ∀ t ∈ l, '"' ∉ t) {q : Query} (hq : q.Valid) :
    (l.foldl addQuotation q).Valid ∧ (l.foldl addQuotation q).tokens = q.tokens := by
  induction l generalizing q with
  | nil => exact ⟨hq, rfl⟩
  | cons t l ih =>
    obtain ⟨hvalid, htokens⟩ :=
      ih (fun u hu => hl u (List.mem_cons_of_mem _ hu)) (hq.addQuotation (hl t (by simp)))
    exact ⟨hvalid, by rw [List.foldl_cons, htokens, tokens_addQuotation]⟩

theorem foldl_addToken {l : List Token} (hl : ∀ k ∈ l, k.Valid) {q : Query} (hq : q.Valid) :
    (l.foldl addToken q).Valid ∧ quotesIn (l.foldl addToken q).tokens ≤ quotesIn q.tokens + quotesIn l := by
  induction l generalizing q with
  | nil => exact ⟨hq, by simp⟩
  | cons k l ih =>
    obtain ⟨hvalid, hquotes⟩ := ih (fun j hj => hl j (List.mem_cons_of_mem _ hj)) (hq.addToken (hl k (by simp)))
    have h := quotesIn_addToken_le q k
    refine ⟨hvalid, ?_⟩
    rw [quotesIn_cons, List.foldl_cons]
    omega

/-- Of the quotes of a text at most the last stays outside quotation. -/
theorem unquotePieces_quotes {l : List Text} (hl : ∀ w ∈ l, '"' ∉ w) :
    (unquotePieces l).1.count '"' ≤ 1 ∧ ∀ t ∈ (unquotePieces l).2, '"' ∉ t := by
  fun_induction unquotePieces l with
  | case1 => simp
  | case2 outside => simp [List.count_eq_zero_of_not_mem (hl outside (by simp))]
  | case3 outside rest =>
    have h1 := List.count_eq_zero_of_not_mem (hl outside (by simp))
    have h2 := List.count_eq_zero_of_not_mem (hl rest (by simp))
    simp [h1, h2]
  | case4 outside quoted rest hrest t quotations heq ih =>
    obtain ⟨hcount, hquoted⟩ := ih fun w hw => hl w (List.mem_cons_of_mem _ (List.mem_cons_of_mem _ hw))
    rw [heq] at hcount hquoted
    have h1 := List.count_eq_zero_of_not_mem (hl outside (by simp))
    refine ⟨by simpa [h1] using hcount, fun u hu => ?_⟩
    rcases List.mem_cons.1 hu with rfl | hu
    · exact hl u (by simp)
    · exact hquoted u hu

theorem unquote_quotes (t : Text) : (unquote t).1.count '"' ≤ 1 ∧ ∀ u ∈ (unquote t).2, '"' ∉ u := by
  refine unquotePieces_quotes fun w hw hmem => ?_
  exact absurd (Text.apply_of_mem_splitOn hw hmem) (by simp)

theorem quotesIn_map_ofText_words (t : Text) : quotesIn ((Text.words t).map Token.ofText) = t.count '"' := by
  have h : ∀ l : List Text, quotesIn (l.map Token.ofText) = l.flatten.count '"' := by
    intro l
    induction l with
    | nil => rfl
    | cons w l ih => simp [ih, Token.count_render_ofText]
  rw [h, Text.flatten_words, List.count_filter (by decide)]

/-- **Reading gives nothing but well-formed queries.** -/
theorem parse_wellFormed (t : Text) : (parse t).WellFormed := by
  obtain ⟨hcount, hquoted⟩ := unquote_quotes t
  obtain ⟨hphrases, htokens⟩ := foldl_addQuotation hquoted valid_empty
  have hwords : ∀ k ∈ (Text.words (unquote t).1).map Token.ofText, k.Valid := by
    intro k hk
    obtain ⟨w, hw, rfl⟩ := List.mem_map.1 hk
    exact Token.ofText_valid (Text.isWord_of_mem_words hw)
  obtain ⟨hvalid, hquotes⟩ := foldl_addToken hwords hphrases
  have hempty : quotesIn empty.tokens = 0 := rfl
  rw [htokens, hempty, Nat.zero_add, quotesIn_map_ofText_words] at hquotes
  refine ⟨{ hvalid with }, ?_, ?_⟩
  · exact Nat.le_trans hquotes hcount
  · simp [parse, refresh]

theorem filterOnly_parse {t : Text} (h : (parse t).terms ≠ [] ∨ (parse t).phrases ≠ []) : (parse t).filterOnly = false := by
  rw [Bool.eq_false_iff, ne_eq, (parse_wellFormed t).filterOnly, not_and_or]
  exact h

end ContentSearch.Query
