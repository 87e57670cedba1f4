import ContentSearch.Proofs.Search.Narrowing

/-!
# Searches of any index

A search never asks for what is not there, even if its index was not made from the items.  Two of its steps are spelled out
here by the positions and offsets that they go through: the flags of the fields that contribute to a score, which are set one
by one (`Scorer.flags_eq`), and the place of the nearest word, which is counted in the excerpt up to a byte offset
(`FieldMatch.ofWordAt_eq`).  Scoring by these steps comes to the same (`Scorer.scoreByFlags_eq`), and a search that scores
items has a result (`search_completes`).
-/

namespace ContentSearch

/-! ## flags -/

def setFlag (flags : List Bool) (n : Nat) : Except Fault (List Bool) :=
  if n < flags.length then .ok (flags.set n true) else .error (.badPosition n)

theorem setFlag_eq_ok {flags : List Bool} {n : Nat} (h : n < flags.length) : setFlag flags n = .ok (flags.set n true) :=
  if_pos h

namespace Scorer

variable {α : Type} [Scalar α]

/-- The flags after some fields, the first of which has a position in the list of flags. -/
def flagsFrom (s : Scorer α) (flags : List Bool) (n : Nat) :
    List (ScoredField α × IndexedField) → Except Fault (List Bool)
  | [] => .ok flags
  | (spec, f) :: rest => do
    let flags ← if (s.hits spec f).found then setFlag flags n else pure flags
    s.flagsFrom flags (n + 1) rest

/-- For each entry of an item, whether its field contributes. An index may have more or fewer fields than the item. -/
def flags (s : Scorer α) (e : IndexedItem) : Except Fault (List Bool) :=
  s.flagsFrom (List.replicate e.fields.length false) 0 (s.fields.zip e.fields)

/-- Setting flags from the end of `before` on; `after` is left as it is. The induction is on the fields that are left. -/
theorem flagsFrom_eq (s : Scorer α) (before : List Bool) (l : List (ScoredField α × IndexedField)) (after : List Bool) :
    s.flagsFrom (before ++ List.replicate l.length false ++ after) before.length l =
      .ok (before ++ l.map (fun p => (s.hits p.1 p.2).found) ++ after) := by
  induction l generalizing before with
  | nil => rfl
  | cons p l ih =>
    obtain ⟨spec, f⟩ := p
    have hset (b : Bool) : (before ++ List.replicate (l.length + 1) false ++ after).set before.length b =
        before ++ [b] ++ List.replicate l.length false ++ after := by
      rw [List.replicate_succ, List.append_assoc, List.set_append_right _ _ (Nat.le_refl _), Nat.sub_self]
      simp
    have hlt : before.length < (before ++ List.replicate (l.length + 1) false ++ after).length := by
      simp only [List.length_append, List.length_replicate]
      omega
    have hrest (b : Bool) : s.flagsFrom (before ++ [b] ++ List.replicate l.length false ++ after) (before.length + 1) l =
        .ok (before ++ [b] ++ l.map (fun p => (s.hits p.1 p.2).found) ++ after) := by
      have hlength : (before ++ [b]).length = before.length + 1 := by simp
      rw [← hlength]
      exact ih (before ++ [b])
    rw [flagsFrom, List.length_cons, List.map_cons]
    cases hfound : (s.hits spec f).found with
    | true =>
      rw [if_pos rfl, setFlag_eq_ok hlt, hset]
      show s.flagsFrom _ _ _ = _
      rw [hrest]
      simp
    | false =>
      have hsame : before ++ List.replicate (l.length + 1) false ++ after =
          before ++ [false] ++ List.replicate l.length false ++ after := by simp [List.replicate_succ]
      rw [if_neg Bool.false_ne_true, hsame]
      show s.flagsFrom _ _ _ = _
      rw [hrest]
      simp

/-- The flags are set in range, whatever the numbers of the fields: one for each field that both have, and none for the
others. -/
theorem flags_eq (s : Scorer α) (e : IndexedItem) :
    s.flags e = .ok ((s.fieldHits e).map (fun x => x.2.2.found) ++
      List.replicate (e.fields.length - s.fields.length) false) := by
  let l := s.fields.zip e.fields
  have hlength : e.fields.length = l.length + (e.fields.length - s.fields.length) := by
    simp only [l, List.length_zip]
    omega
  have hflags := s.flagsFrom_eq [] l (List.replicate (e.fields.length - s.fields.length) false)
  rw [List.nil_append, List.nil_append, List.replicate_append_replicate, ← hlength] at hflags
  rw [flags, fieldHits, List.map_map]
  exact hflags

end Scorer

/-! ## the nearest word -/

/-- The byte offset of the first occurrence of a text in another. -/
def Text.findBytes? (needle t : Text) : Option Nat := (find? needle t).map fun n => byteLength (t.take n)

namespace FieldMatch

/-- The match of a field by one of its words, whose place is the number of characters before a byte offset. -/
def ofWordAt (name t : Text) (r : Text.ByteRange) (maxLength : Nat) : Except Fault FieldMatch := do
  let word ← Text.slice t r
  let excerpt ← Excerpt.cut t (some r) maxLength
  match Text.findBytes? word excerpt with
  | none => return ⟨name, excerpt, []⟩
  | some offset =>
    let before ← Text.slice excerpt ⟨0, offset⟩
    return ⟨name, excerpt, [(before.length, before.length + word.length)]⟩

theorem ofWordAt_eq (name t : Text) (r : Text.ByteRange) (maxLength : Nat) :
    ofWordAt name t r maxLength = ofWord name t r maxLength := by
  unfold ofWordAt ofWord
  cases Text.slice t r with
  | error fault => rfl
  | ok word =>
    cases Excerpt.cut t (some r) maxLength with
    | error fault => rfl
    | ok excerpt =>
      simp only [bind, Except.bind, Text.findBytes?]
      cases hfind : Text.find? word excerpt with
      | none => rfl
      | some n =>
        obtain ⟨hle, -, -⟩ := Text.find?_eq_some_iff.1 hfind
        have hslice : Text.slice excerpt ⟨0, Text.byteLength (excerpt.take n)⟩ = .ok (excerpt.take n) := by
          simpa using Text.slice_before (excerpt.take n) (excerpt.drop n) []
        simp [hslice, List.length_take, Nat.min_eq_left hle, pure, Except.pure]

end FieldMatch

/-! ## scores -/

namespace Scorer

variable {α : Type} [Scalar α]

/-- The match of a field, by positions and offsets. -/
def shown (s : Scorer α) (spec : ScoredField α) (f : IndexedField) : Except Fault FieldMatch :=
  match if s.pattern.occursIn f.text then none
    else FieldMatch.nearestRange? s.matcher s.query.terms spec.fuzzy f with
  | some r => FieldMatch.ofWordAt spec.name f.text r s.excerptLength
  | none => FieldMatch.ofPattern spec.name s.pattern f.text s.excerptLength

/-- The score of an item and how its match is shown, by flags. -/
def scoreByFlags (s : Scorer α) (e : IndexedItem) : Except Fault (Option (Scored α)) := do
  let flags ← s.flags e
  match s.value? e with
  | none => return none
  | some score =>
    let contributing := ((s.fields.zip e.fields).zip flags).filter (·.2)
    let matched ← contributing.mapM fun ((spec, f), _) => s.shown spec f
    return some ⟨score, matched, s.matchedTerms e⟩

theorem shown_eq (s : Scorer α) (spec : ScoredField α) (f : IndexedField) :
    s.shown spec f = FieldMatch.ofField s.matcher s.pattern s.query.terms spec f s.excerptLength := by
  rw [shown, FieldMatch.ofField]
  cases if s.pattern.occursIn f.text then none else FieldMatch.nearestRange? s.matcher s.query.terms spec.fuzzy f with
  | none => rfl
  | some r => exact FieldMatch.ofWordAt_eq ..

theorem filter_flags (s : Scorer α) (e : IndexedItem) (n : Nat) :
    ((s.fields.zip e.fields).zip ((s.fieldHits e).map (fun x => x.2.2.found) ++ List.replicate n false)).filter (·.2) =
      ((s.fieldHits e).filter fun x => x.2.2.found).map fun x => ((x.1, x.2.1), true) := by
  unfold fieldHits
  induction s.fields.zip e.fields with
  | nil => rfl
  | cons p l ih =>
    obtain ⟨spec, f⟩ := p
    simp only [List.map_cons, List.cons_append, List.zip_cons_cons, List.filter_cons]
    cases hfound : (s.hits spec f).found with
    | true => simpa [hfound] using ih
    | false => simpa [hfound] using ih

theorem scoreByFlags_eq (s : Scorer α) (e : IndexedItem) : s.scoreByFlags e = s.score e := by
  rw [scoreByFlags, s.flags_eq, score]
  simp only [bind, Except.bind]
  cases s.value? e with
  | none => rfl
  | some score =>
    simp only [filter_flags, shown_eq, List.mapM_map]
    rfl

end Scorer

/-! ## searches -/

theorem search_eq_map_takeAtMost {ι α : Type} [PatternCompiler] [Scalar α] (items : List ι) (x : Index α) (q : Query)
    (c : Config α) :
    search items x q c = (search items x q { c with maxResults := none }).map (takeAtMost c.maxResults) := by
  have hscorer : Scorer.ofQuery x q { c with maxResults := none } = .ofQuery x q c := rfl
  unfold search
  cases x.resolveFilters? q with
  | none => cases c.maxResults <;> simp [takeAtMost, Except.map]
  | some filters =>
    simp only [hscorer, takeAtMost]
    split
    · cases (x.candidates items.length filters q).mapM (Hit.unscored (α := α) items) <;> rfl
    · cases (x.candidates items.length filters q).mapM (Hit.scored? items x.items (.ofQuery x q c)) <;> rfl

theorem search_eq_takeAtMost {ι α : Type} [PatternCompiler] [Scalar α] (items : List ι) {x : Index α} (q : Query) (c : Config α)
    (hfits : ∀ e ∈ x.items, e.Fits) : search items x q c =
      .ok (takeAtMost c.maxResults (ranked q ((x.met items.length q).filterMap (Hit.made? items x q c)))) := by
  rw [search_eq_map_takeAtMost, search_eq items q c hfits]
  rfl

/-- **A search has a result, whatever its index.**  For every collection, every index whose scored texts fit into memory
(with more or fewer entries than there are items, more or fewer fields than are declared, and forms that do not belong to
their texts), every query and every configuration, no step of the search asks for what is not there: the search has hits,
each of which is an item that has an entry, and every entry has a result, also when its fields are flagged by their
positions and its nearest word is located by its byte offset. -/
theorem search_completes {ι α : Type} [PatternCompiler] [Scalar α] (items : List ι) (x : Index α) (q : Query) (c : Config α)
    (hfits : ∀ e ∈ x.items, e.Fits) :
    ∃ hits, search items x q c = .ok hits ∧
      (∀ h ∈ hits, items[h.position]? = some h.item ∧ h.position < x.size) ∧
      ∀ e ∈ x.items, ∃ r, (Scorer.ofQuery x q c).scoreByFlags e = .ok r ∧ (Scorer.ofQuery x q c).score e = .ok r := by
  refine ⟨_, search_eq_takeAtMost items q c hfits, ?_, ?_⟩
  · intro h hh
    obtain ⟨i, hi, hmade⟩ := List.mem_filterMap.1 (mem_ranked_iff.1 (mem_of_mem_takeAtMost hh))
    have hhit := isHit_of_mem hfits hi hmade
    obtain ⟨-, e, he, -⟩ := Index.mem_met_iff.1 hi
    rw [hhit.position]
    exact ⟨hhit.item, (List.getElem?_eq_some_iff.1 he).1⟩
  · intro e he
    obtain ⟨r, hr, -⟩ := (Scorer.ofQuery x q c).exists_score (hfits e he)
    exact ⟨r, (Scorer.scoreByFlags_eq ..).trans hr, hr⟩

/-- An index that belongs to no collection: its entries have fewer and more fields than are declared, and hold words and
lowercase texts that are not those of their texts. -/
def mismatched : Index Rat where
  fields := [⟨"title".toList, 1, true⟩, ⟨"body".toList, 1, true⟩]
  filterFields := []
  items := [
    ⟨none, [⟨"Straße".toList, "rust".toList, ["rust".toList], []⟩], []⟩,
    ⟨none, [.empty, ⟨"ΟΔΟΣ".toList, [], ["rusty".toList], []⟩, ⟨[], "rust".toList, [], []⟩], []⟩]

theorem search_completes_mismatched :
    (∀ e ∈ mismatched.items, e.Fits) ∧ ∃ hits : List (Hit Json Rat),
      search [titled "Go".toList] mismatched (.parse "rust".toList) titles = .ok hits ∧
      hits.map Hit.position = [0] ∧ ∀ h ∈ hits, [titled "Go".toList][h.position]? = some h.item := by
  have hfits : ∀ e ∈ mismatched.items, e.Fits := by
    simp only [mismatched, IndexedItem.Fits, IndexedField.empty, List.forall_mem_cons, List.not_mem_nil, false_implies,
      implies_true, and_true]
    decide
  obtain ⟨hits, hsearch, hplace, -⟩ :=
    search_completes [titled "Go".toList] mismatched (.parse "rust".toList) titles hfits
  exact ⟨hfits, hits, hsearch, map_eq_of_eq_ok hsearch (by decide +kernel), fun h hh => (hplace h hh).1⟩

end ContentSearch
