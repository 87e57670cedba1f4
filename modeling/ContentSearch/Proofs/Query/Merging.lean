import ContentSearch.Proofs.Query.Requests
import Mathlib.Algebra.Group.Nat.Even
import Mathlib.Data.List.Induction

/-!
# Reading a text in two parts

* `Dictionary.merge`: two dictionaries in one (`Dictionary.find?_merge`), where look-ups tell dictionaries apart
  (`Dictionary.eq_of_find?`);
* `collect_append`: what two lists hold, each text where it occurs first;
* `unquote_append_isBlank`: quotation does not reach over white space, unless a quote before it pairs up with one behind it;
* `parse_append`: so a text is read as the merge of what its two parts are read as, and each word and each quotation of it
  asks for one thing.
-/

namespace ContentSearch

/-! ## dictionaries -/

namespace Dictionary

variable {α : Type}

theorem find?_eq_some_iff {d : Dictionary α} {key : Text} {v : α} : d.find? key = some v ↔ (key, v) ∈ d.entries := by
  obtain ⟨l, hl⟩ := d
  show (l.find? fun e => e.1 = key).map (·.2) = some v ↔ (key, v) ∈ l
  constructor
  · intro h
    obtain ⟨e, he, rfl⟩ := Option.map_eq_some_iff.1 h
    have hkey : e.1 = key := by simpa using List.find?_some he
    exact hkey ▸ List.mem_of_find?_eq_some he
  · intro h
    obtain ⟨as, bs, rfl⟩ := List.append_of_mem h
    have hbefore : as.find? (fun e => e.1 = key) = none := by
      rw [List.find?_eq_none]
      intro e he heq
      have hlt : e.1 < key := (List.pairwise_append.1 hl).2.2 e he (key, v) List.mem_cons_self
      rw [of_decide_eq_true heq] at hlt
      exact lt_irrefl key hlt
    rw [List.find?_append, hbefore, Option.none_or, List.find?_cons_of_pos (by simp)]
    rfl

/-- Dictionaries with the same look-ups are equal. -/
theorem eq_of_find? {d e : Dictionary α} (h : ∀ key, d.find? key = e.find? key) : d = e := by
  have hmem : ∀ x, x ∈ d.entries ↔ x ∈ e.entries := by
    rintro ⟨key, v⟩
    rw [← find?_eq_some_iff, ← find?_eq_some_iff, h]
  have hnodup : ∀ d : Dictionary α, d.entries.Nodup := by
    intro d
    apply d.sorted.imp
    intro a b hlt hab
    rw [hab] at hlt
    exact lt_irrefl b.1 hlt
  have hperm : d.entries.Perm e.entries := (List.perm_ext_iff_of_nodup (hnodup d) (hnodup e)).2 hmem
  apply ext
  apply hperm.eq_of_pairwise _ d.sorted e.sorted
  intro a b _ _ hab hba
  exact absurd (lt_trans hab hba) (lt_irrefl a.1)

/-- The entries of two dictionaries, where `f` joins the values that both have at one key. -/
def merge (f : α → α → α) (d e : Dictionary α) : Dictionary α :=
  e.entries.foldl (fun d x => d.alter x.1 fun v => v.elim x.2 (f · x.2)) d

theorem find?_merge (f : α → α → α) (d e : Dictionary α) (key : Text) :
    (d.merge f e).find? key = Option.merge f (d.find? key) (e.find? key) := by
  obtain ⟨l, hl⟩ := e
  show (l.foldl _ d).find? key = Option.merge f (d.find? key) ((l.find? fun e => e.1 = key).map (·.2))
  induction l generalizing d with
  | nil => simp
  | cons x l ih =>
    obtain ⟨hx, hl⟩ := List.pairwise_cons.1 hl
    rw [List.foldl_cons, ih _ hl]
    by_cases hkey : x.1 = key
    · subst hkey
      rw [find?_eq_none_of_lt hx, find?_alter_self, List.find?_cons_of_pos (by simp)]
      cases d.find? x.1 <;> rfl
    · rw [find?_alter_of_ne _ _ (Ne.symm hkey), List.find?_cons_of_neg (by simpa using hkey)]

end Dictionary

namespace Query

/-! ## merging -/

/-- A list, and behind it the texts of another one that it does not hold. -/
def adjoin (l m : List Text) : List Text := l ++ m.filter fun t => !l.contains t

/-- What two queries ask for: everything that the first one asks for, and behind that what only the second one asks for. -/
def merge (p q : Query) : Query :=
  refresh {
    terms := adjoin p.terms q.terms
    phrases := adjoin p.phrases q.phrases
    exclusions := adjoin p.exclusions q.exclusions
    filters := p.filters.merge adjoin q.filters
    filterOnly := p.filterOnly }

@[simp] theorem adjoin_nil (l : List Text) : adjoin l [] = l := by simp [adjoin]

theorem mem_adjoin {l m : List Text} {t : Text} : t ∈ adjoin l m ↔ t ∈ l ∨ t ∈ m := by
  by_cases hl : t ∈ l <;> simp [adjoin, hl]

theorem pushUnique_of_mem {l : List Text} {t : Text} (h : t ∈ l) : pushUnique l t = l := if_pos h

theorem pushUnique_of_not_mem {l : List Text} {t : Text} (h : t ∉ l) : pushUnique l t = l ++ [t] := if_neg h

theorem pushUnique_adjoin (l m : List Text) (t : Text) : pushUnique (adjoin l m) t = adjoin l (pushUnique m t) := by
  by_cases hm : t ∈ m
  · rw [pushUnique_of_mem (mem_adjoin.2 (.inr hm)), pushUnique_of_mem hm]
  · rw [pushUnique_of_not_mem hm]
    by_cases hl : t ∈ l
    · rw [pushUnique_of_mem (mem_adjoin.2 (.inl hl))]
      simp [adjoin, hl]
    · rw [pushUnique_of_not_mem (by simp [mem_adjoin, hl, hm])]
      simp [adjoin, hl]

theorem collect_append (l m : List Text) : collect (l ++ m) = adjoin (collect l) (collect m) := by
  induction m using List.reverseRecOn with
  | nil => simp [collect]
  | append_singleton m t ih =>
    have hlast : ∀ k : List Text, collect (k ++ [t]) = pushUnique (collect k) t := fun k => List.foldl_append
    rw [← List.append_assoc, hlast, hlast, ih, pushUnique_adjoin]

/-! ## two parts of a text -/

/-- **Quotation in two parts.**  White space stands between what is quoted before it and what is quoted behind it, if no
quote before it is left without a partner, or no quote follows. -/
theorem unquote_append_isBlank {a b : Text} {c : Char} (hc : Text.isBlank c = true)
    (h : Even (a.count '"') ∨ '"' ∉ b) :
    unquote (a ++ c :: b) = ((unquote a).1 ++ c :: (unquote b).1, (unquote a).2 ++ (unquote b).2) := by
  have hne : c ≠ '"' := by
    rintro rfl
    exact absurd hc (by decide)
  obtain ⟨os, ps, hquotes⟩ := exists_quotes a
  -- each pair of quotes before the white space takes two of them away, so what is left of them stays even in number
  induction hquotes with
  | @last t hcount =>
    rw [unquote_of_count_le hcount]
    rcases h with heven | hb
    · have hmem : '"' ∉ t := by
        rw [← List.count_eq_zero]
        obtain ⟨k, hk⟩ := heven
        omega
      rw [unquote_append_of_not_mem hmem, unquote_cons hne]
      rfl
    · have hzero : b.count '"' = 0 := List.count_eq_zero_of_not_mem hb
      have hwhole : (t ++ c :: b).count '"' ≤ 1 := by
        rwa [List.count_append, List.count_cons_of_ne hne, hzero]
      rw [unquote_of_count_le hwhole, unquote_of_count_le (by omega), List.append_nil]
  | @quoted outside part t os ps hout hpart hrest ih =>
    have hrest : Even (t.count '"') ∨ '"' ∉ b := by
      apply h.imp_left
      intro heven
      have hcount : (outside ++ '"' :: part ++ '"' :: t).count '"' = t.count '"' + 2 := by
        simp [List.count_eq_zero_of_not_mem hout, List.count_eq_zero_of_not_mem hpart]
      rw [hcount] at heven
      exact (Nat.even_add.1 heven).2 (by decide)
    rw [List.append_assoc _ ('"' :: t), List.cons_append, unquote_append_quoted hout hpart, ih hrest,
      unquote_append_quoted hout hpart]
    simp

variable {a b : Text} {c : Char}

theorem requests_append (hc : Text.isBlank c = true) (h : Even (a.count '"') ∨ '"' ∉ b) :
    requests (a ++ c :: b) = requests a ++ requests b := by
  rw [requests, unquote_append_isBlank hc h, Text.words_append_isBlank hc, List.map_append]
  rfl

theorem quotations_append (l m : List Text) : quotations (l ++ m) = quotations l ++ quotations m := by
  simp [quotations]

theorem merge_collect (l m : List Text) :
    Option.merge adjoin (if l = [] then none else some (collect l)) (if m = [] then none else some (collect m)) =
      if l ++ m = [] then none else some (collect (l ++ m)) := by
  rcases eq_or_ne l [] with rfl | hl
  · simp
  · rcases eq_or_ne m [] with rfl | hm
    · simp [hl]
    · simp [hl, hm, collect_append]

theorem parse_append_isBlank (hc : Text.isBlank c = true) (h : Even (a.count '"') ∨ '"' ∉ b) :
    parse (a ++ c :: b) = (parse a).merge (parse b) := by
  have hterms : (parse (a ++ c :: b)).terms = adjoin (parse a).terms (parse b).terms := by
    rw [terms_parse, terms_parse, terms_parse, requests_append hc h, List.filterMap_append, collect_append]
  have hexclusions : (parse (a ++ c :: b)).exclusions = adjoin (parse a).exclusions (parse b).exclusions := by
    rw [exclusions_parse, exclusions_parse, exclusions_parse, requests_append hc h, List.filterMap_append, collect_append]
  have hphrases : (parse (a ++ c :: b)).phrases = adjoin (parse a).phrases (parse b).phrases := by
    rw [phrases_parse, phrases_parse, phrases_parse, unquote_append_isBlank hc h, quotations_append, collect_append]
  have hfilters : (parse (a ++ c :: b)).filters = (parse a).filters.merge adjoin (parse b).filters := by
    apply Dictionary.eq_of_find?
    intro name
    rw [Dictionary.find?_merge, find?_filters_parse, find?_filters_parse, find?_filters_parse, merge_collect,
      requests_append hc h, List.filterMap_append]
  have hrefresh : ∀ t, parse t = (parse t).refresh := fun _ => rfl
  rw [hrefresh]
  simp only [merge, refresh, hterms, hexclusions, hphrases, hfilters]

/-- **Reading splits over white space.**  A text is read as the merge of what stands before and behind some white space in
it, if the quotes before it are even in number or none stands behind it.  Every text has parts outside quotation and quoted
parts; each word of the former asks for one term, exclusion or filter, each of the latter that is not blank asks for a
phrase, and the query asks for nothing else. -/
theorem parse_append :
    (∀ (a b : Text) (c : Char), Text.isBlank c = true → Even (a.count '"') ∨ '"' ∉ b →
      parse (a ++ c :: b) = (parse a).merge (parse b)) ∧
    (∀ (p q : Query) (name : Text), (p.merge q).filters.find? name =
      Option.merge adjoin (p.filters.find? name) (q.filters.find? name)) ∧
    (∀ w, ∃! k, Token.Reads w k) ∧
    (∀ t, ∃ os ps, Quotes t os ps) ∧
    ∀ t os ps, Quotes t os ps →
      (∀ k, (parse t).Asks k ↔ ∃ w ∈ os.flatMap Text.words, Token.Reads w k) ∧
      ∀ p, p ∈ (parse t).phrases ↔ p ≠ [] ∧ ∃ u ∈ ps, p = Text.lowercase (Text.trim u) := by
  refine ⟨?_, ?_, ?_, exists_quotes, ?_⟩
  · intro a b c hc h
    exact parse_append_isBlank hc h
  · intro p q name
    exact Dictionary.find?_merge adjoin p.filters q.filters name
  · intro w
    refine ⟨Token.ofText w, Token.reads_ofText w, ?_⟩
    intro k hk
    exact (Token.reads_iff.1 hk).symm
  · intro t os ps hquotes
    constructor
    · intro k
      simp only [asks_parse_iff, requests, List.mem_map, hquotes.unquote_eq, Text.words_joinWith_flatMap, Token.reads_iff]
    · intro p
      rw [mem_phrases_parse_iff, hquotes.unquote_eq]

theorem parse_append_unterminated :
    parse ("\"Zero Trust\" -old".toList ++ ' ' :: "tag:api \"open".toList) =
        merge (parse "\"Zero Trust\" -old".toList) (parse "tag:api \"open".toList) ∧
      (parse "\"Zero Trust\" -old".toList).Asks (.exclusion "old".toList) ∧
      "zero trust".toList ∈ (parse "\"Zero Trust\" -old".toList).phrases := by
  obtain ⟨happend, -, -, -, hparts⟩ := parse_append
  have hquotes : Quotes ([] ++ '"' :: "Zero Trust".toList ++ '"' :: " -old".toList) [[], " -old".toList]
      ["Zero Trust".toList] := .quoted (by simp) (by decide) (.last (by decide))
  obtain ⟨hasks, hphrases⟩ := hparts _ _ _ hquotes
  have hexclusion : Token.Reads "-old".toList (.exclusion "old".toList) := Token.reads_iff.2 (by decide +kernel)
  refine ⟨happend _ _ ' ' (by decide) (.inl (by decide)), ?_, ?_⟩
  · exact (hasks _).2 ⟨_, by decide +kernel, hexclusion⟩
  · exact (hphrases _).2 ⟨by decide, "Zero Trust".toList, by decide, by decide +kernel⟩

/-- A quote before the white space that pairs up with one behind it quotes what stands between them. -/
example : parse ("\"zero".toList ++ ' ' :: "trust\"".toList) ≠ merge (parse "\"zero".toList) (parse "trust\"".toList) := by
  decide +kernel

end Query
end ContentSearch
