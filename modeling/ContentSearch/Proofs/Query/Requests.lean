import ContentSearch.Proofs.Query.RoundTrip

/-!
# What a typed text asks for

* `Quotes`: the parts of a text outside quotation and the quoted ones, by the pairs of its quotes; every text has such parts
  (`exists_quotes`), and they are those that reading finds (`Quotes.unquote_eq`);
* `Token.Reads`: what a word asks for, which is one thing (`Token.reads_iff`);
* `terms_parse`, `exclusions_parse`, `find?_filters_parse`, `phrases_parse`: what reading collects from the words outside
  quotation (`requests`) and from the quotations;
* `asks_parse_iff`, `mem_phrases_parse_iff`: so a query that is read asks for what its words and its quotations ask for.
-/

namespace ContentSearch

/-! ## words of several texts -/

namespace Text

theorem words_append_isBlank {c : Char} (hc : isBlank c = true) (s t : Text) : words (s ++ c :: t) = words s ++ words t := by
  rw [words, splitOn_append_separator hc, List.filter_append]
  rfl

theorem words_joinWith_flatMap (l : List Text) : words (joinWith [' '] l) = l.flatMap words := by
  induction l with
  | nil => rfl
  | cons a l ih =>
    cases l with
    | nil => simp
    | cons b l =>
      rw [joinWith_cons_cons, List.append_assoc, List.singleton_append, words_append_isBlank (by decide), ih]
      rfl

end Text

namespace Query

/-! ## quotation -/

/-- The parts of a text outside quotation and the quoted ones, both in order: as long as there are two quotes, the first two
of them enclose what is quoted, and of what is left no more than one quote stands in the last part. -/
inductive Quotes : Text → List Text → List Text → Prop
  | last {t : Text} (count : t.count '"' ≤ 1) : Quotes t [t] []
  | quoted {outside part t : Text} {os ps : List Text} (not_mem_outside : '"' ∉ outside) (not_mem_part : '"' ∉ part)
      (rest : Quotes t os ps) : Quotes (outside ++ '"' :: part ++ '"' :: t) (outside :: os) (part :: ps)

theorem exists_quotes (t : Text) : ∃ os ps, Quotes t os ps := by
  induction hn : t.length using Nat.strongRecOn generalizing t with
  | ind n ih =>
    by_cases hcount : t.count '"' ≤ 1
    · exact ⟨_, _, .last hcount⟩
    obtain ⟨outside, u, rfl, hout⟩ : ∃ outside u, t = outside ++ '"' :: u ∧ '"' ∉ outside :=
      List.eq_append_cons_of_mem (List.count_pos_iff.1 (by omega))
    rw [List.count_append, List.count_eq_zero_of_not_mem hout, List.count_cons_self] at hcount
    obtain ⟨part, rest, rfl, hpart⟩ : ∃ part rest, u = part ++ '"' :: rest ∧ '"' ∉ part :=
      List.eq_append_cons_of_mem (List.count_pos_iff.1 (by omega))
    obtain ⟨os, ps, hrest⟩ := ih rest.length (by simp at hn; omega) rest rfl
    exact ⟨outside :: os, part :: ps, by simpa using Quotes.quoted hout hpart hrest⟩

theorem unquote_append_of_not_mem {a : Text} (ha : '"' ∉ a) (t : Text) :
    unquote (a ++ t) = (a ++ (unquote t).1, (unquote t).2) := by
  induction a with
  | nil => rfl
  | cons c a ih =>
    rw [List.mem_cons, not_or] at ha
    rw [List.cons_append, unquote_cons (Ne.symm ha.1), ih ha.2]
    rfl

theorem unquote_append_quoted {outside part : Text} (hout : '"' ∉ outside) (hpart : '"' ∉ part) (t : Text) :
    unquote (outside ++ '"' :: part ++ '"' :: t) = (outside ++ ' ' :: (unquote t).1, part :: (unquote t).2) := by
  rw [List.append_assoc, unquote_append_of_not_mem hout, unquote_quoted hpart]

/-- **Reading finds the parts of a text.** -/
theorem Quotes.unquote_eq {t : Text} {os ps : List Text} (h : Quotes t os ps) :
    unquote t = (Text.joinWith [' '] os, ps) := by
  induction h with
  | last hcount => rw [unquote_of_count_le hcount, Text.joinWith_singleton]
  | @quoted outside part t os ps hout hpart hrest ih =>
    obtain ⟨o, os, rfl⟩ : ∃ o os', os = o :: os' := by cases hrest <;> exact ⟨_, _, rfl⟩
    rw [unquote_append_quoted hout hpart, ih, Text.joinWith_cons_cons, List.append_assoc, List.singleton_append]

/-! ## tokens -/

/-- What a word asks for: a dash before something excludes that; otherwise text on both sides of the first colon is a
filter; and otherwise the word is a term. -/
inductive Token.Reads : Text → Token → Prop
  | exclusion {t : Text} (ne : t ≠ []) : Reads ('-' :: t) (.exclusion (Text.lowercase t))
  | filter {name value : Text} (name_ne : name ≠ []) (value_ne : value ≠ []) (not_colon : ':' ∉ name)
      (not_dashed : ∀ t, name ≠ '-' :: t) :
      Reads (name ++ ':' :: value) (.filter (Text.lowercase name) (Text.lowercase value))
  | term {t : Text} (not_dashed : ∀ u, t = '-' :: u → u = [])
      (not_filter : ∀ a b, t = a ++ ':' :: b → ':' ∉ a → a = [] ∨ b = []) : Reads t (.term (Text.lowercase t))

theorem Token.reads_ofText (w : Text) : Token.Reads w (Token.ofText w) := by
  unfold Token.ofText
  split
  · exact .exclusion (by simp)
  · next hdash =>
    have hdash : ∀ u, w = '-' :: u → u = [] := by
      intro u hu
      cases u with
      | nil => rfl
      | cons c u => exact absurd hu (hdash c u)
    by_cases hfilter : ∀ a b, w = a ++ ':' :: b → ':' ∉ a → a = [] ∨ b = []
    · rw [Token.ofPlain_of_forall hfilter]
      exact .term hdash hfilter
    · push Not at hfilter
      obtain ⟨name, value, rfl, hcolon, hname, hvalue⟩ := hfilter
      rw [Token.ofPlain, Text.splitFirst?_eq_some_iff.2 ⟨rfl, hcolon⟩]
      simp only [List.isEmpty_eq_false_iff.2 hname, List.isEmpty_eq_false_iff.2 hvalue, Bool.or_false, Bool.false_eq_true,
        if_false]
      refine .filter hname hvalue hcolon ?_
      intro u hu
      have hrest := hdash (u ++ ':' :: value) (by rw [hu]; rfl)
      simp at hrest

/-- A word asks for one thing, which is what reading makes of it. -/
theorem Token.reads_iff {w : Text} {k : Token} : Token.Reads w k ↔ Token.ofText w = k := by
  constructor
  · intro h
    cases h with
    | @exclusion t ne =>
      obtain ⟨c, t, rfl⟩ := List.exists_cons_of_ne_nil ne
      rfl
    | @filter name value hname hvalue hcolon hdash =>
      have hdashed : ∀ u, name ++ ':' :: value = '-' :: u → u = [] := by
        intro u hu
        obtain ⟨d, name', rfl⟩ := List.exists_cons_of_ne_nil hname
        obtain rfl : d = '-' := (List.cons.inj hu).1
        exact absurd rfl (hdash name')
      rw [Token.ofText_of_not_dashed hdashed, Token.ofPlain, Text.splitFirst?_eq_some_iff.2 ⟨rfl, hcolon⟩]
      simp [hname, hvalue]
    | term hdash hfilter => rw [Token.ofText_of_not_dashed hdash, Token.ofPlain_of_forall hfilter]
  · rintro rfl
    exact Token.reads_ofText w

/-! ## what a query that is read asks for -/

/-- What the words of a text outside quotation ask for, in order. -/
def requests (t : Text) : List Token := (Text.words (unquote t).1).map Token.ofText

/-- What the quotations ask for that are not blank, in order. -/
def quotations (l : List Text) : List Text := (l.map fun t => Text.lowercase (Text.trim t)).filter (· ≠ [])

/-- The texts in the order in which they first occur. -/
def collect (l : List Text) : List Text := l.foldl pushUnique []

theorem mem_foldl_pushUnique {l m : List Text} {t : Text} : t ∈ m.foldl pushUnique l ↔ t ∈ l ∨ t ∈ m := by
  induction m generalizing l with
  | nil => simp
  | cons u m ih => rw [List.foldl_cons, ih, mem_pushUnique, List.mem_cons, or_assoc]

@[simp] theorem mem_collect {l : List Text} {t : Text} : t ∈ collect l ↔ t ∈ l := by
  simp [collect, mem_foldl_pushUnique]

namespace Token

def term? : Token → Option Text
  | .term t => some t
  | _ => none

def exclusion? : Token → Option Text
  | .exclusion t => some t
  | _ => none

/-- The value that an attribute should have. -/
def value? (name : Text) : Token → Option Text
  | .filter n v => if n = name then some v else none
  | _ => none

theorem term?_eq_some_iff {k : Token} {t : Text} : k.term? = some t ↔ k = .term t := by
  cases k <;> simp [term?]

theorem exclusion?_eq_some_iff {k : Token} {t : Text} : k.exclusion? = some t ↔ k = .exclusion t := by
  cases k <;> simp [exclusion?]

theorem value?_eq_some_iff {k : Token} {name v : Text} : k.value? name = some v ↔ k = .filter name v := by
  cases k <;> simp [value?]

end Token

theorem part_foldl_addToken (part : Query → List Text) (f : Token → Option Text)
    (hstep : ∀ q k, part (q.addToken k) = (f k).elim (part q) (pushUnique (part q))) (l : List Token) (q : Query) :
    part (l.foldl addToken q) = (l.filterMap f).foldl pushUnique (part q) := by
  induction l generalizing q with
  | nil => rfl
  | cons k l ih =>
    rw [List.foldl_cons, ih, hstep, List.filterMap_cons]
    cases f k <;> rfl

/-- A filter appears with its first value. -/
theorem find?_filters_foldl_addToken (name : Text) (l : List Token) (q : Query) :
    (l.foldl addToken q).filters.find? name =
      if l.filterMap (Token.value? name) = [] then q.filters.find? name
      else some ((l.filterMap (Token.value? name)).foldl pushUnique ((q.filters.find? name).getD [])) := by
  induction l generalizing q with
  | nil => simp
  | cons k l ih =>
    rw [List.foldl_cons, ih]
    cases k with
    | term t => rfl
    | exclusion t => rfl
    | filter n v =>
      by_cases hn : n = name
      · subst hn
        simp only [List.filterMap_cons, Token.value?, if_true, reduceCtorEq, if_false, addToken,
          Dictionary.find?_alter_self, Option.getD_some, List.foldl_cons]
        split
        · next hvalues => rw [hvalues, List.foldl_nil]
        · rfl
      · simp only [List.filterMap_cons, Token.value?, hn, if_false, addToken, Dictionary.find?_alter_of_ne _ _ (Ne.symm hn)]

theorem foldl_addQuotation_eq_quotations (l : List Text) (q : Query) :
    l.foldl addQuotation q = { q with phrases := (quotations l).foldl pushUnique q.phrases } := by
  induction l generalizing q with
  | nil => rfl
  | cons t l ih =>
    rw [List.foldl_cons, ih]
    unfold addQuotation quotations
    by_cases hblank : Text.lowercase (Text.trim t) = []
    · simp [hblank]
    · simp [hblank, List.isEmpty_eq_false_iff.2 hblank]

variable (t : Text)

theorem terms_parse : (parse t).terms = collect ((requests t).filterMap Token.term?) := by
  show ((requests t).foldl addToken _).terms = _
  rw [part_foldl_addToken terms Token.term? (fun q k => by cases k <;> rfl), foldl_addQuotation_eq_quotations]
  rfl

theorem exclusions_parse : (parse t).exclusions = collect ((requests t).filterMap Token.exclusion?) := by
  show ((requests t).foldl addToken _).exclusions = _
  rw [part_foldl_addToken exclusions Token.exclusion? (fun q k => by cases k <;> rfl), foldl_addQuotation_eq_quotations]
  rfl

theorem phrases_parse : (parse t).phrases = collect (quotations (unquote t).2) := by
  show ((requests t).foldl addToken _).phrases = _
  rw [part_foldl_addToken phrases (fun _ => none) (fun q k => by cases k <;> rfl), List.filterMap_none, List.foldl_nil,
    foldl_addQuotation_eq_quotations]
  rfl

theorem find?_filters_parse (name : Text) :
    (parse t).filters.find? name =
      if (requests t).filterMap (Token.value? name) = [] then none
      else some (collect ((requests t).filterMap (Token.value? name))) := by
  show ((requests t).foldl addToken _).filters.find? name = _
  rw [find?_filters_foldl_addToken, foldl_addQuotation_eq_quotations]
  rfl

/-- The query asks for a token. -/
def Asks (q : Query) : Token → Prop
  | .term t => t ∈ q.terms
  | .exclusion t => t ∈ q.exclusions
  | .filter name value => ∃ values, q.filters.find? name = some values ∧ value ∈ values

variable {t}

/-- **A query that is read asks for what the words outside quotation ask for.** -/
theorem asks_parse_iff {k : Token} : (parse t).Asks k ↔ k ∈ requests t := by
  cases k with
  | term u => simp [Asks, terms_parse, List.mem_filterMap, Token.term?_eq_some_iff]
  | exclusion u => simp [Asks, exclusions_parse, List.mem_filterMap, Token.exclusion?_eq_some_iff]
  | filter name value =>
    have hmem : value ∈ (requests t).filterMap (Token.value? name) ↔ .filter name value ∈ requests t := by
      simp [List.mem_filterMap, Token.value?_eq_some_iff]
    rw [← hmem, Asks, find?_filters_parse]
    split
    · next hnone => simp [hnone]
    · simp

/-- **Its phrases are what the quotations that are not blank ask for.** -/
theorem mem_phrases_parse_iff {p : Text} :
    p ∈ (parse t).phrases ↔ p ≠ [] ∧ ∃ u ∈ (unquote t).2, p = Text.lowercase (Text.trim u) := by
  simp only [phrases_parse, mem_collect, quotations, List.mem_filter, List.mem_map, decide_eq_true_eq, ne_eq]
  rw [and_comm]
  simp only [eq_comm]

end Query
end ContentSearch
