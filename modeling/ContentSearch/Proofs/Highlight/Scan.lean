import ContentSearch.Proofs.Highlight.Occurrences

/-!
# The leftmost-longest scan

`Scan` says what the matches in a text are, whatever finds them: the earliest run of characters that is an occurrence of
something sought, of the occurrences at this place the longest, and then the matches in the text after it.

* `Scan.unique`: there is only one such list of matches;
* `Scan.exists_overlap`: every occurrence overlaps a match;
* `scan_matchesFrom`: a pattern that tries longer terms first finds these matches;
* `terms_longestFirst`: and the pattern of a query tries them in this order;
* `scan_foldedMatches`: so its matches in a lowercase copy are those of the scan for what the query seeks.
-/

namespace ContentSearch

open Text (ByteRange byteLength)

namespace Highlight

/-- A run of characters is an occurrence of one of some texts if it is that text up to case folding. No run is empty. -/
def Occurs (sought : Text → Prop) (m : Text) : Prop := m ≠ [] ∧ ∃ term, sought term ∧ m.map Text.fold = term.map Text.fold

/-- The matches of a scan of a text that starts at a byte offset, for the runs of characters that are occurrences. -/
inductive Scan (occurs : Text → Prop) : Nat → Text → List ByteRange → Prop
  /-- Nothing occurs in the text. -/
  | done {offset : Nat} {t : Text} (nothing : ∀ s m u, t = s ++ m ++ u → ¬ occurs m) : Scan occurs offset t []
  /-- The run `m` is the earliest occurrence, and at its place the longest. -/
  | next {offset : Nat} {t s m u : Text} {l : List ByteRange} (text : t = s ++ m ++ u) (found : occurs m)
      (earliest : ∀ s' m' u', t = s' ++ m' ++ u' → occurs m' → s.length ≤ s'.length)
      (longest : ∀ m' u', m ++ u = m' ++ u' → occurs m' → m'.length ≤ m.length)
      (rest : Scan occurs (offset + byteLength s + byteLength m) u l) :
      Scan occurs offset t (⟨offset + byteLength s, offset + byteLength s + byteLength m⟩ :: l)

namespace Scan

variable {occurs : Text → Prop} {offset : Nat} {t : Text} {l : List ByteRange}

/-- **A text has only one leftmost-longest scan.** -/
theorem unique (h : Scan occurs offset t l) {l' : List ByteRange} (h' : Scan occurs offset t l') : l = l' := by
  induction h generalizing l' with
  | done hnone =>
    cases h' with
    | done => rfl
    | next htext hm => exact absurd hm (hnone _ _ _ htext)
  | @next offset t s m u l htext hm hearliest hlongest _ ih =>
    cases h' with
    | done hnone => exact absurd hm (hnone _ _ _ htext)
    | @next _ _ s' m' u' l' htext' hm' hearliest' hlongest' hrest' =>
      have hlength : s.length = s'.length :=
        Nat.le_antisymm (hearliest _ _ _ htext' hm') (hearliest' _ _ _ htext hm)
      have hparts : s ++ (m ++ u) = s' ++ (m' ++ u') := by
        rw [← List.append_assoc, ← List.append_assoc, ← htext, htext']
      obtain ⟨rfl, hafter⟩ := List.append_inj hparts hlength
      have hlength' : m.length = m'.length :=
        Nat.le_antisymm (hlongest' _ _ hafter.symm hm) (hlongest _ _ hafter hm')
      obtain ⟨rfl, rfl⟩ := List.append_inj hafter hlength'
      rw [ih hrest']

/-- A place at which nothing occurs is passed over. -/
theorem cons {c : Char} (hnone : ∀ m u, c :: t = m ++ u → ¬ occurs m) (h : Scan occurs (offset + c.utf8Size) t l) :
    Scan occurs offset (c :: t) l := by
  cases h with
  | done hrest =>
    refine .done fun s m u htext => ?_
    cases s with
    | nil => exact hnone m u htext
    | cons d s => exact hrest s m u (List.cons.inj htext).2
  | @next _ _ s m u l htext hm hearliest hlongest hrest =>
    have hoffset : offset + c.utf8Size + byteLength s = offset + byteLength (c :: s) := by
      rw [Text.byteLength_cons, Nat.add_assoc]
    rw [hoffset] at hrest ⊢
    refine .next (by rw [htext]; rfl) hm (fun s' m' u' htext' hm' => ?_) hlongest hrest
    cases s' with
    | nil => exact absurd hm' (hnone m' u' htext')
    | cons d s' => exact Nat.succ_le_succ (hearliest s' m' u' (List.cons.inj htext').2 hm')

theorem exists_of_mem (h : Scan occurs offset t l) {r : ByteRange} (hr : r ∈ l) :
    ∃ s m u, t = s ++ m ++ u ∧ occurs m ∧ r = ⟨offset + byteLength s, offset + byteLength s + byteLength m⟩ := by
  induction h with
  | done => exact absurd hr List.not_mem_nil
  | @next offset t s m u l htext hm _ _ _ ih =>
    rcases List.mem_cons.1 hr with rfl | hr
    · exact ⟨s, m, u, htext, hm, rfl⟩
    · obtain ⟨s', m', u', rfl, hm', rfl⟩ := ih hr
      refine ⟨s ++ m ++ s', m', u', ?_, hm', ?_⟩
      · rw [htext]
        simp only [List.append_assoc]
      · simp only [Text.byteLength_append, Nat.add_assoc]

/-- **Every occurrence overlaps a match.**  It does not start before the first match. If it starts before the end of that one,
it overlaps it, since it is not empty; otherwise it is an occurrence in the rest. -/
theorem exists_overlap (h : Scan occurs offset t l) {s m u : Text} (htext : t = s ++ m ++ u) (hm : occurs m) (hne : m ≠ []) :
    ∃ r ∈ l, r.start < offset + byteLength s + byteLength m ∧ offset + byteLength s < r.stop := by
  induction h generalizing s with
  | done hnone => exact absurd hm (hnone _ _ _ htext)
  | @next offset t s₀ m₀ u₀ l htext₀ hm₀ hearliest _ _ ih =>
    have hle : s₀.length ≤ s.length := hearliest _ _ _ htext hm
    have hparts : s₀ ++ (m₀ ++ u₀) = s ++ (m ++ u) := by
      rw [← List.append_assoc, ← List.append_assoc, ← htext, htext₀]
    obtain ⟨k, rfl, hafter⟩ : ∃ k, s = s₀ ++ k ∧ m₀ ++ u₀ = k ++ (m ++ u) := by
      obtain ⟨k, rfl⟩ : s₀ <+: s := List.prefix_of_prefix_length_le ⟨_, rfl⟩ ⟨_, hparts.symm⟩ hle
      exact ⟨k, rfl, by simpa using hparts⟩
    have hpos := Text.byteLength_pos hne
    by_cases hk : byteLength k < byteLength m₀
    · refine ⟨_, List.mem_cons_self, ?_, ?_⟩
      · show offset + byteLength s₀ < _
        rw [Text.byteLength_append]
        omega
      · show _ < offset + byteLength s₀ + byteLength m₀
        rw [Text.byteLength_append]
        omega
    · obtain ⟨k', rfl, hu₀⟩ := Text.exists_prefix_of_le hafter (Nat.le_of_not_lt hk)
      obtain ⟨r, hr, hstart, hstop⟩ := ih (s := k') (by rw [hu₀, List.append_assoc])
      simp only [Text.byteLength_append, ← Nat.add_assoc] at hstart hstop ⊢
      exact ⟨r, List.mem_cons_of_mem _ hr, hstart, hstop⟩

end Scan

/-! ## the order of the terms -/

theorem dropRepeated_sublist (l : List Text) : List.Sublist (dropRepeated l) l := by
  fun_induction dropRepeated l with
  | case1 => exact .slnil
  | case2 a => exact .refl _
  | case3 a l ih => exact ih.cons a
  | case4 a b l _ ih => exact ih.cons_cons a

theorem comesBefore_iff {a b : Text} : comesBefore a b = true ↔ b.length < a.length ∨ a.length = b.length ∧ ¬ b < a := by
  unfold comesBefore
  split
  · next h => simp [h]
  · next h => simp [h]

theorem terms_of_pairwise {q : Query} {l : List Text}
    (hl : (((q.terms ++ q.phrases).map Text.lowercase ++ q.phrases.flatMap fun p => (Text.words p).map Text.lowercase).filter
      fun t => !t.isEmpty) = l) (hsorted : l.Pairwise fun a b => comesBefore a b = true) : terms q = dropRepeated l := by
  rw [terms, hl, List.mergeSort_of_pairwise hsorted]

/-- What a query highlights is tried in the order of length. -/
theorem terms_longestFirst (q : Query) : (terms q).Pairwise fun a b => b.length ≤ a.length := by
  refine List.Pairwise.sublist (dropRepeated_sublist _) ?_
  refine (List.pairwise_mergeSort ?_ ?_ _).imp fun {a b} h => ?_
  · intro a b c hab hbc
    rw [comesBefore_iff] at hab hbc ⊢
    rcases hab with hab | ⟨hab, hle⟩
    · left
      rcases hbc with hbc | ⟨hbc, -⟩ <;> omega
    · rcases hbc with hbc | ⟨hbc, hle'⟩
      · left
        omega
      · right
        exact ⟨hab.trans hbc, List.le_trans (α := Char) hle hle'⟩
  · intro a b
    rw [Bool.or_eq_true, comesBefore_iff, comesBefore_iff]
    rcases Nat.lt_trichotomy a.length b.length with hlt | heq | hlt
    · exact .inr (.inl hlt)
    · have htotal : ¬ b < a ∨ ¬ a < b := List.le_total (α := Char) a b
      exact htotal.imp (fun h => .inr ⟨heq, h⟩) fun h => .inr ⟨heq.symm, h⟩
    · exact .inl (.inl hlt)
  · rcases comesBefore_iff.1 h with hlt | ⟨heq, -⟩
    · exact Nat.le_of_lt hlt
    · exact Nat.le_of_eq heq.symm

end Highlight

/-! ## matches of patterns -/

namespace Pattern

open Highlight

variable {p : Pattern} {t : Text} {offset n : Nat}

/-- Of the terms that a text starts with, the first one is found; if longer terms are tried first, it is the longest. -/
theorem matchLength?_spec (hp : p.tried.Pairwise fun a b => b.length ≤ a.length) (h : p.matchLength? t = some n) :
    (∃ term ∈ p.tried, term.length = n ∧ term.map Text.fold <+: t.map Text.fold) ∧
      ∀ term ∈ p.tried, term.map Text.fold <+: t.map Text.fold → term.length ≤ n := by
  obtain ⟨term, hfind, rfl⟩ := Option.map_eq_some_iff.1 h
  obtain ⟨hstarts, before, after, hterms, hnone⟩ := List.find?_eq_some_iff_append.1 hfind
  refine ⟨⟨term, ?_, rfl, startsWithFolded_iff.1 hstarts⟩, fun other hother hprefix => ?_⟩
  · rw [hterms]
    exact List.mem_append_right _ List.mem_cons_self
  · rw [hterms] at hp hother
    rcases List.mem_append.1 hother with hbefore | hafter
    · have hskipped := hnone other hbefore
      rw [startsWithFolded_iff.2 hprefix] at hskipped
      exact absurd hskipped (by decide)
    · rcases List.mem_cons.1 hafter with rfl | hafter
      · exact Nat.le_refl _
      · exact List.rel_of_pairwise_cons (List.pairwise_append.1 hp).2.1 hafter

theorem prefix_of_occurs {m u : Text} (h : Occurs (· ∈ p.tried) m) :
    ∃ term ∈ p.tried, term.length = m.length ∧ term.map Text.fold <+: (m ++ u).map Text.fold := by
  obtain ⟨-, term, hterm, hfold⟩ := h
  refine ⟨term, hterm, ?_, ?_⟩
  · have hlength := congrArg List.length hfold
    simpa using hlength.symm
  · rw [List.map_append, hfold]
    exact List.prefix_append ..

/-- **A pattern that tries longer terms first makes the leftmost-longest scan.** -/
theorem scan_matchesFrom (hnil : [] ∉ p.tried) (hp : p.tried.Pairwise fun a b => b.length ≤ a.length) :
    Scan (Occurs (· ∈ p.tried)) offset t (p.matchesFrom offset t) := by
  fun_induction matchesFrom p offset t with
  | case1 => exact .done fun s m u h hm => hm.1 (List.append_eq_nil_iff.1 (List.append_eq_nil_iff.1 h.symm).1).2
  | case2 offset c t hnone ih =>
    refine ih.cons fun m u h hm => ?_
    obtain ⟨term, hterm, -, hprefix⟩ := prefix_of_occurs (u := u) hm
    have hsome := matchLength?_isSome_iff.2 ⟨term, hterm, h ▸ hprefix⟩
    rw [hnone] at hsome
    exact absurd hsome Bool.false_ne_true
  | case3 offset c t n hsome stop ih =>
    obtain ⟨⟨term, hterm, hlength, hprefix⟩, hlongest⟩ := matchLength?_spec hp hsome
    obtain ⟨m, hm, hfold⟩ := List.prefix_map_iff.1 hprefix
    have hcount : m.length = n := by
      have hmap := congrArg List.length hfold
      rw [List.length_map, List.length_map] at hmap
      exact hmap.symm.trans hlength
    have hpos : 0 < n := by
      rw [← hlength]
      exact List.length_pos_iff.2 fun h => hnil (h ▸ hterm)
    -- the run that is found are the first `n` characters
    have hrun : m = c :: t.take (n - 1) := by
      rw [List.prefix_iff_eq_take.1 hm, hcount, ← List.take_succ_cons, Nat.sub_add_cancel hpos]
    have htext : c :: t = m ++ t.drop (n - 1) := by rw [hrun, List.cons_append, List.take_append_drop]
    have hoccurs : Occurs (· ∈ p.tried) m :=
      ⟨by rw [hrun]; exact List.cons_ne_nil _ _, term, hterm, hfold.symm⟩
    have hstop : stop = offset + byteLength m := by rw [hrun]
    rw [hstop] at ih ⊢
    refine Scan.next (s := []) htext hoccurs (fun _ _ _ _ _ => Nat.zero_le _) (fun m' u' h hm' => ?_) ih
    obtain ⟨term', hterm', hlength', hprefix'⟩ := prefix_of_occurs (u := u') hm'
    rw [hcount, ← hlength']
    exact hlongest term' hterm' (by rw [htext, h]; exact hprefix')

end Pattern

/-! ## queries -/

namespace Pattern

open Highlight

/-- What is highlighted is what a query seeks, save for empty texts, which occur nowhere. -/
theorem occurs_terms (q : Query) : Occurs (· ∈ Highlight.terms q) = Occurs (IsSought q) := by
  funext m
  refine propext ⟨?_, ?_⟩
  · rintro ⟨hne, term, hterm, hfold⟩
    exact ⟨hne, term, (mem_terms_iff.1 hterm).2, hfold⟩
  · rintro ⟨hne, term, hsought, hfold⟩
    refine ⟨hne, term, mem_terms_iff.2 ⟨?_, hsought⟩, hfold⟩
    rintro rfl
    exact hne (List.map_eq_nil_iff.1 hfold)

variable [PatternCompiler]

theorem ofQuery_eq {q : Query} {l : List Text} (hterms : Highlight.terms q = l) (hl : PatternCompiler.accepts l = true) :
    ofQuery q = ⟨l, true⟩ := by
  rw [ofQuery, hterms, hl]

theorem scan_tried (q : Query) (t : Text) :
    Scan (Occurs (· ∈ (ofQuery q).tried)) 0 (Folded.lowerEach t) ((ofQuery q).foldedMatches (Folded.ofText t)) := by
  rw [foldedMatches, Folded.lower_ofText]
  refine scan_matchesFrom (nil_not_mem_ofQuery q) ?_
  unfold tried
  split
  · exact terms_longestFirst q
  · exact .nil

/-- **The matches of a query in the copy of a text** are those of the leftmost-longest scan for what it seeks, if its pattern
was compiled. -/
theorem scan_foldedMatches {q : Query} (hq : (ofQuery q).accepted = true) (t : Text) :
    Scan (Occurs (IsSought q)) 0 (Folded.lowerEach t) ((ofQuery q).foldedMatches (Folded.ofText t)) := by
  rw [← occurs_terms, ← tried_ofQuery hq]
  exact scan_tried q t

end Pattern
end ContentSearch
