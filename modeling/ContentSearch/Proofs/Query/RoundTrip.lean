import ContentSearch.Proofs.Query.WellFormed

/-!
# Writing a query and reading it back

`parse_render_iff`: what reading gives is well formed, and a query is read back from its text exactly when it is well
formed.  Reading goes through three stages, each of which undoes one of writing: quotation (`unquote_joinWith`), tokens
(`Token.ofText_render`) and the collection of tokens in a query (`foldl_tokens`).
-/

namespace ContentSearch.Query

/-! ## quotation -/

theorem unquote_cons {c : Char} (h : c ≠ '"') (t : Text) :
    unquote (c :: t) = (c :: (unquote t).1, (unquote t).2) := by
  unfold unquote
  obtain ⟨w, ws, hws⟩ := List.exists_cons_of_ne_nil (Text.splitOn_ne_nil (· == '"') t)
  rw [Text.splitOn_cons_of_neg (by simpa using h) hws, hws]
  rcases ws with _ | ⟨a, _ | ⟨b, ws⟩⟩ <;> rfl

theorem unquote_quoted {p : Text} (h : '"' ∉ p) (t : Text) :
    unquote ('"' :: p ++ '"' :: t) = (' ' :: (unquote t).1, p :: (unquote t).2) := by
  have hp : ∀ c ∈ p, (c == '"') = false := by
    intro c hc
    simp only [beq_eq_false_iff_ne]
    rintro rfl
    exact h hc
  unfold unquote
  rw [List.cons_append, Text.splitOn_cons_of_pos (by simp), Text.splitOn_append_cons hp (by simp)]
  obtain ⟨w, ws, hws⟩ := List.exists_cons_of_ne_nil (Text.splitOn_ne_nil (· == '"') t)
  rw [hws]
  rfl

/-- A quote without a partner quotes nothing. -/
theorem unquote_of_count_le {t : Text} (h : t.count '"' ≤ 1) : unquote t = (t, []) := by
  have hno : ∀ {a : Text}, '"' ∉ a → ∀ c ∈ a, (c == '"') = false := by
    intro a ha c hc
    simp only [beq_eq_false_iff_ne]
    rintro rfl
    exact ha hc
  unfold unquote
  by_cases hmem : '"' ∈ t
  · obtain ⟨a, b, rfl, ha⟩ := List.eq_append_cons_of_mem hmem
    have hb : '"' ∉ b := by
      rw [← List.count_eq_zero]
      simp only [List.count_append, List.count_cons_self] at h
      omega
    rw [Text.splitOn_append_cons (hno ha) (by simp), Text.splitOn_of_forall (hno hb)]
    rfl
  · rw [Text.splitOn_of_forall (hno hmem)]
    rfl

/-- Quoted phrases before parts with at most one quote among them are read as phrases, and the parts keep their words. -/
theorem unquote_joinWith {phrases parts : List Text} (hphrases : ∀ p ∈ phrases, '"' ∉ p)
    (hparts : (Text.joinWith [' '] parts).count '"' ≤ 1) :
    ∃ plain, unquote (Text.joinWith [' '] (phrases.map (fun t => '"' :: t ++ ['"']) ++ parts)) = (plain, phrases) ∧
      Text.words plain = Text.words (Text.joinWith [' '] parts) := by
  induction phrases with
  | nil => exact ⟨_, unquote_of_count_le hparts, rfl⟩
  | cons p phrases ih =>
    obtain ⟨plain, hplain, hwords⟩ := ih fun u hu => hphrases u (List.mem_cons_of_mem _ hu)
    have hp := hphrases p (by simp)
    rw [List.map_cons, List.cons_append]
    cases hrest : phrases.map (fun t => '"' :: t ++ ['"']) ++ parts with
    | nil =>
      obtain ⟨hnil, rfl⟩ := List.append_eq_nil_iff.1 hrest
      obtain rfl := List.map_eq_nil_iff.1 hnil
      exact ⟨[' '], by rw [Text.joinWith_singleton, unquote_quoted hp]; rfl, rfl⟩
    | cons x l =>
      rw [hrest] at hplain
      -- a phrase leaves a space in its place and the one that separates it, and no word has either
      refine ⟨' ' :: ' ' :: plain, ?_, ?_⟩
      · rw [Text.joinWith_cons_cons, List.append_assoc, List.append_assoc, List.singleton_append, List.singleton_append,
          unquote_quoted hp, unquote_cons (by decide), hplain]
      · rw [Text.words_cons_of_isBlank (by decide), Text.words_cons_of_isBlank (by decide), hwords]

/-! ## tokens -/

theorem Token.ofPlain_of_forall {t : Text} (h : ∀ a b, t = a ++ ':' :: b → ':' ∉ a → a = [] ∨ b = []) :
    Token.ofPlain t = .term (Text.lowercase t) := by
  unfold Token.ofPlain
  split
  · next name value hsplit =>
    obtain ⟨ht, hname⟩ := Text.splitFirst?_eq_some_iff.1 hsplit
    rw [if_pos]
    simpa using h name value ht hname
  · rfl

theorem Token.ofText_of_not_dashed {t : Text} (h : ∀ u, t = '-' :: u → u = []) :
    Token.ofText t = Token.ofPlain t := by
  unfold Token.ofText
  split
  · next c u => exact absurd (h (c :: u) rfl) (by simp)
  · rfl

/-- A valid token is read back from its text. -/
theorem Token.ofText_render {k : Token} (h : k.Valid) : Token.ofText k.render = k := by
  cases k with
  | term t =>
    rw [render, ofText_of_not_dashed h.not_dashed, ofPlain_of_forall h.not_filter, h.lowerWord.2]
  | exclusion t =>
    obtain ⟨c, u, rfl⟩ := List.exists_cons_of_ne_nil h.1.1
    show Token.exclusion (Text.lowercase (c :: u)) = _
    rw [h.2]
  | filter name value =>
    obtain ⟨hname, hvalue⟩ := h
    have hdash : ∀ u, name ++ ':' :: value = '-' :: u → u = [] := by
      intro u hu
      cases name with
      | nil => exact absurd rfl hname.lowerWord.1.1
      | cons c name =>
        obtain ⟨rfl, -⟩ := List.cons.inj hu
        exact absurd rfl (hname.not_dashed name)
    have hsplit : Text.splitFirst? ':' (name ++ ':' :: value) = some (name, value) :=
      Text.splitFirst?_eq_some_iff.2 ⟨rfl, hname.not_colon⟩
    have hempty : (name.isEmpty || value.isEmpty) = false := by
      simp [hname.lowerWord.1.1, hvalue.1.1]
    rw [render, ofText_of_not_dashed hdash, ofPlain, hsplit]
    simp only [hempty, hname.lowerWord.2, hvalue.2, Bool.false_eq_true, if_false]

/-- A valid token is typed as one word. -/
theorem Token.isWord_render {k : Token} (h : k.Valid) : Text.IsWord k.render := by
  cases k with
  | term t => exact h.lowerWord.1
  | exclusion t =>
    refine ⟨by simp [render], fun c hc => ?_⟩
    rcases List.mem_cons.1 hc with rfl | hc
    · decide
    · exact h.1.2 c hc
  | filter name value =>
    obtain ⟨hname, hvalue⟩ := h
    refine ⟨by simp [render], fun c hc => ?_⟩
    rcases List.mem_append.1 hc with hc | hc
    · exact hname.lowerWord.1.2 c hc
    · rcases List.mem_cons.1 hc with rfl | hc
      · decide
      · exact hvalue.1.2 c hc

theorem parts_eq (q : Query) : q.parts = q.phrases.map (fun t => '"' :: t ++ ['"']) ++ q.tokens.map Token.render := by
  simp [parts, tokens, filterTokens, List.map_flatMap, Function.comp_def, Token.render]

/-! ## collecting tokens -/

theorem foldl_pushUnique {l : List Text} {m : List Text} (h : (l ++ m).Nodup) : m.foldl pushUnique l = l ++ m := by
  induction m generalizing l with
  | nil => simp
  | cons t m ih =>
    have ht : t ∉ l := by
      intro ht
      exact (List.nodup_append.1 h).2.2 t ht t (by simp) rfl
    rw [List.foldl_cons, pushUnique, if_neg ht, ih (by simpa using h)]
    simp

theorem foldl_addQuotation_eq {l : List Text} (hl : ∀ t ∈ l, IsPhrase t) (q : Query) :
    l.foldl addQuotation q = { q with phrases := l.foldl pushUnique q.phrases } := by
  induction l generalizing q with
  | nil => rfl
  | cons t l ih =>
    have ht := hl t (by simp)
    have hadd : q.addQuotation t = { q with phrases := pushUnique q.phrases t } := by
      unfold addQuotation
      simp only [ht.trimmed, ht.lower]
      rw [if_neg (by simpa using ht.ne_nil)]
    rw [List.foldl_cons, hadd, ih fun u hu => hl u (List.mem_cons_of_mem _ hu)]
    rfl

theorem foldl_terms (l : List Text) (q : Query) :
    (l.map Token.term).foldl addToken q = { q with terms := l.foldl pushUnique q.terms } := by
  induction l generalizing q with
  | nil => rfl
  | cons t l ih =>
    rw [List.map_cons, List.foldl_cons, ih]
    rfl

theorem foldl_exclusions (l : List Text) (q : Query) :
    (l.map Token.exclusion).foldl addToken q = { q with exclusions := l.foldl pushUnique q.exclusions } := by
  induction l generalizing q with
  | nil => rfl
  | cons t l ih =>
    rw [List.map_cons, List.foldl_cons, ih]
    rfl

theorem alterEntries_append {α : Type} {key : Text} (f : Option α → α) {l : List (Text × α)} (hl : ∀ e ∈ l, e.1 < key)
    (m : List (Text × α)) : Dictionary.alterEntries key f (l ++ m) = l ++ Dictionary.alterEntries key f m := by
  induction l with
  | nil => rfl
  | cons e l ih =>
    obtain ⟨k, v⟩ := e
    have hk : k < key := hl (k, v) (by simp)
    have hlt : ¬ key < k := fun h => Dictionary.lt_irrefl _ (Dictionary.lt_trans hk h)
    have hne : key ≠ k := fun h => Dictionary.lt_irrefl k (h ▸ hk)
    rw [List.cons_append, Dictionary.alterEntries, if_neg hlt, if_neg hne, ih fun e he => hl e (by simp [he])]
    rfl

/-- The filters on one attribute, collected after those on smaller names. -/
theorem foldl_filters {name : Text} {l : List (Text × List Text)} (hl : ∀ e ∈ l, e.1 < name) {us vs : List Text}
    (h : (us ++ vs).Nodup) {q : Query} (hq : q.filters.entries = l ++ [(name, us)]) :
    ∃ d, (vs.map (Token.filter name)).foldl addToken q = { q with filters := d } ∧
      d.entries = l ++ [(name, us ++ vs)] := by
  induction vs generalizing us q with
  | nil => exact ⟨q.filters, rfl, by simpa using hq⟩
  | cons v vs ih =>
    have hv : v ∉ us := by
      intro hv
      exact (List.nodup_append.1 h).2.2 v hv v (by simp) rfl
    have hentries : (q.addToken (.filter name v)).filters.entries = l ++ [(name, us ++ [v])] := by
      simp [addToken, Dictionary.alter, hq, alterEntries_append _ hl, Dictionary.alterEntries, pushUnique, hv]
    have hnodup : (us ++ [v] ++ vs).Nodup := by simpa using h
    obtain ⟨d, hd, hdentries⟩ := ih hnodup hentries
    exact ⟨d, by rw [List.map_cons, List.foldl_cons, hd]; rfl, by simpa using hdentries⟩

/-- The filters of a dictionary, collected in the order of their names, give back its entries. -/
theorem foldl_filterTokens {l m : List (Text × List Text)} (hsorted : (l ++ m).Pairwise fun a b => a.1 < b.1)
    (hm : ∀ e ∈ m, e.2 ≠ [] ∧ e.2.Nodup) {q : Query} (hq : q.filters.entries = l) :
    ∃ d, (filterTokens m).foldl addToken q = { q with filters := d } ∧ d.entries = l ++ m := by
  induction m generalizing l q with
  | nil => exact ⟨q.filters, rfl, by simpa using hq⟩
  | cons e m ih =>
    obtain ⟨name, values⟩ := e
    obtain ⟨hne, hnodup⟩ := hm (name, values) (by simp)
    obtain ⟨v, vs, rfl⟩ := List.exists_cons_of_ne_nil hne
    -- names ascend, so the first value makes an entry at the end, and the others are added to that one
    have hl : ∀ e ∈ l, e.1 < name := fun e he => (List.pairwise_append.1 hsorted).2.2 e he (name, v :: vs) (by simp)
    have hfirst : (q.addToken (.filter name v)).filters.entries = l ++ [(name, [v])] := by
      show Dictionary.alterEntries name (fun values => pushUnique (values.getD []) v) q.filters.entries = _
      have h := alterEntries_append (fun values : Option (List Text) => pushUnique (values.getD []) v) hl []
      rw [List.append_nil] at h
      rw [hq, h]
      simp [Dictionary.alterEntries, pushUnique]
    have hvalues : ([v] ++ vs).Nodup := hnodup
    obtain ⟨d, hd, hdentries⟩ := foldl_filters hl hvalues hfirst
    have hsorted' : (l ++ [(name, v :: vs)] ++ m).Pairwise fun a b => a.1 < b.1 := by simpa using hsorted
    have hq' : ({ q with filters := d } : Query).filters.entries = l ++ [(name, v :: vs)] := hdentries
    obtain ⟨d', hd', hdentries'⟩ := ih hsorted' (fun e he => hm e (List.mem_cons_of_mem _ he)) hq'
    refine ⟨d', ?_, by simpa using hdentries'⟩
    rw [filterTokens, List.flatMap_cons, List.foldl_append, List.map_cons, List.foldl_cons, hd]
    exact hd'

theorem foldl_tokens {q : Query} (h : q.Valid) (phrases : List Text) (filterOnly : Bool) :
    q.tokens.foldl addToken ⟨[], phrases, [], .empty, filterOnly⟩ =
      ⟨q.terms, phrases, q.exclusions, q.filters, filterOnly⟩ := by
  obtain ⟨d, hd, hdentries⟩ := foldl_filterTokens (l := []) q.filters.sorted
    (fun e he => ⟨(h.filters e he).2.1, (h.filters e he).2.2.1⟩)
    (q := ⟨q.terms, phrases, q.exclusions, .empty, filterOnly⟩) rfl
  rw [tokens, List.foldl_append, List.foldl_append, foldl_terms, foldl_exclusions,
    foldl_pushUnique (by simpa using h.terms_nodup), foldl_pushUnique (by simpa using h.exclusions_nodup)]
  exact hd.trans (by rw [Dictionary.ext hdentries])

/-! ## the round trip -/

theorem parse_render {q : Query} (h : q.WellFormed) : parse q.render = q := by
  have hvalid : q.Valid := h.toValid
  have hwords : ∀ w ∈ q.tokens.map Token.render, Text.IsWord w := by
    intro w hw
    obtain ⟨k, hk, rfl⟩ := List.mem_map.1 hw
    exact Token.isWord_render (hvalid.of_mem_tokens hk)
  have hquotes : (Text.joinWith [' '] (q.tokens.map Token.render)).count '"' ≤ 1 := by
    rw [Text.count_joinWith (by decide)]
    exact h.quotes
  obtain ⟨plain, hunquote, hplain⟩ := unquote_joinWith (fun p hp => (h.phrases p hp).not_quoted) hquotes
  have htokens : (q.tokens.map Token.render).map Token.ofText = q.tokens := by
    rw [List.map_map]
    conv_rhs => rw [← List.map_id q.tokens]
    exact List.map_congr_left fun k hk => Token.ofText_render (hvalid.of_mem_tokens hk)
  have hphrases : q.phrases.foldl pushUnique [] = q.phrases := by
    simpa using foldl_pushUnique (l := []) (by simpa using h.phrases_nodup)
  have hfilterOnly : (q.terms.isEmpty && q.phrases.isEmpty) = q.filterOnly := by
    rw [Bool.eq_iff_iff, h.filterOnly]
    simp
  unfold parse render
  rw [parts_eq, hunquote]
  simp only
  rw [hplain, Text.words_joinWith hwords, htokens, foldl_addQuotation_eq h.phrases]
  simp only [empty]
  rw [hphrases, foldl_tokens hvalid, refresh]
  simp only [hfilterOnly]

/-- A phrase in quotes and a term are read as these. -/
theorem parse_phrase_term {p t : Text} (hp : IsPhrase p) (ht : IsTerm t) (hquoted : '"' ∉ t) :
    parse ('"' :: p ++ '"' :: ' ' :: t) = ⟨[t], [p], [], .empty, false⟩ := by
  have hwell : WellFormed ⟨[t], [p], [], .empty, false⟩ := by
    refine ⟨⟨?_, ?_, by simp, by simp [Dictionary.toList, Dictionary.empty], by simp, by simp, by simp⟩, ?_, by simp⟩
    · simpa using ht
    · simpa using hp
    · simp [quotesIn, tokens, filterTokens, Dictionary.toList, Dictionary.empty, Token.render,
        List.count_eq_zero_of_not_mem hquoted]
  have hrender : render ⟨[t], [p], [], .empty, false⟩ = '"' :: p ++ '"' :: ' ' :: t := by
    simp [render, parts, Text.joinWith, Dictionary.toList, Dictionary.empty]
  rw [← hrender, parse_render hwell]

/-- **Reading gives well-formed queries, and these are exactly the queries that are read back from their text.**  In
particular a query that was read is read back, whatever quotes its text had. -/
theorem parse_render_iff :
    (∀ t, (parse t).WellFormed) ∧ (∀ q, parse (render q) = q ↔ q.WellFormed) ∧
      ∀ t, parse (render (parse t)) = parse t := by
  refine ⟨parse_wellFormed, fun q => ⟨fun h => ?_, parse_render⟩, fun t => parse_render (parse_wellFormed t)⟩
  rw [← h]
  exact parse_wellFormed _

end ContentSearch.Query
