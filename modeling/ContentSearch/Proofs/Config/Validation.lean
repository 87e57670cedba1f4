import ContentSearch.Config.Basic
import ContentSearch.Index.Basic

/-!
# Accepted configurations

* `of_distinctAfter`: what the fields are that a list of declarations comes to;
* `exists_of_validate`: an accepted configuration has such fields, at least one, each with a name and a positive weight;
* `threshold_of_validate`, `excerptLength_of_validate`: its threshold lies between 0 and 1, and its excerpts are not empty;
* `exists_build`: and it has an index of every collection.
-/

namespace ContentSearch

variable {α : Type} [Scalar α]

/-- A field that may be declared: it has a name, and its weight is a positive number. -/
structure ScoredField.Valid (f : ScoredField α) : Prop where
  name : f.name ≠ []
  finite : Scalar.isFinite f.weight = true
  positive : ¬ f.weight ≤ Scalar.ofNat 0

/-- Numbers need not be equal where they count as the same, but fields that count as the same are equally tolerant. -/
theorem ScoredField.fuzzy_of_beq {f g : ScoredField α} (h : (g == f) = true) : g.fuzzy = f.fuzzy := by
  obtain ⟨name, weight, fuzzy⟩ := g
  obtain ⟨name', weight', fuzzy'⟩ := f
  have hparts : (name == name' && (weight == weight' && fuzzy == fuzzy')) = true := h
  simp only [Bool.and_eq_true, beq_iff_eq] at hparts
  exact hparts.2.2

namespace Config

theorem valid_of_distinctAfter_cons {seen : List (ScoredField α)} {f : ScoredField α} {rest fs : List (ScoredField α)}
    (h : distinctAfter seen (f :: rest) = .ok fs) :
    f.Valid ∧ ((∃ g ∈ seen, g.name = f.name ∧ (g == f) = true ∧ distinctAfter seen rest = .ok fs) ∨
      (∀ g ∈ seen, g.name ≠ f.name) ∧ distinctAfter (seen ++ [f]) rest = .ok fs) := by
  rw [distinctAfter] at h
  split at h
  · simp at h
  · next hname =>
    split at h
    · simp at h
    · next hweight =>
      have hvalid : f.Valid := by
        simp only [Bool.or_eq_true, Bool.not_eq_true', decide_eq_true_eq, not_or, Bool.not_eq_false] at hweight
        exact ⟨by simpa using hname, hweight.1, hweight.2⟩
      refine ⟨hvalid, ?_⟩
      cases hfind : seen.find? fun g => g.name = f.name with
      | some g =>
        rw [hfind] at h
        have hg := List.find?_some hfind
        left
        dsimp only at h
        split at h
        · next hsame => exact ⟨g, List.mem_of_find?_eq_some hfind, by simpa using hg, hsame, h⟩
        · simp at h
      | none =>
        rw [hfind] at h
        right
        exact ⟨fun g hg => by simpa using List.find?_eq_none.1 hfind g hg, h⟩

/-- The fields that some declarations add to earlier ones are valid, stand in the order of their declarations, and have
names that are not repeated; every declaration is among them, or one that counts as the same. -/
theorem of_distinctAfter {seen l fs : List (ScoredField α)} (h : distinctAfter seen l = .ok fs)
    (hseen : (seen.map (·.name)).Nodup) :
    ∃ new, fs = seen ++ new ∧ new.Sublist l ∧ (∀ f ∈ l, f.Valid) ∧ (fs.map (·.name)).Nodup ∧
      ∀ f ∈ l, ∃ g ∈ fs, g.name = f.name ∧ (g = f ∨ (g == f) = true) := by
  induction l generalizing seen with
  | nil =>
    obtain rfl : seen = fs := by simpa [distinctAfter] using h
    exact ⟨[], by simp, .slnil, by simp, hseen, by simp⟩
  | cons f rest ih =>
    obtain ⟨hf, ⟨g, hg, hname, hsame, hrest⟩ | ⟨hfresh, hrest⟩⟩ := valid_of_distinctAfter_cons h
    · obtain ⟨new, rfl, hsub, hvalid, hnodup, hall⟩ := ih hrest hseen
      refine ⟨new, rfl, hsub.cons f, List.forall_mem_cons.2 ⟨hf, hvalid⟩, hnodup, ?_⟩
      exact List.forall_mem_cons.2 ⟨⟨g, List.mem_append_left _ hg, hname, .inr hsame⟩, hall⟩
    · have hseen' : ((seen ++ [f]).map (·.name)).Nodup := by
        rw [List.map_append, List.nodup_append]
        refine ⟨hseen, by simp, ?_⟩
        intro a ha b hb
        obtain ⟨g, hg, rfl⟩ := List.mem_map.1 ha
        obtain rfl : b = f.name := by simpa using hb
        exact hfresh g hg
      obtain ⟨new, rfl, hsub, hvalid, hnodup, hall⟩ := ih hrest hseen'
      refine ⟨f :: new, by simp, hsub.cons_cons f, List.forall_mem_cons.2 ⟨hf, hvalid⟩, hnodup, ?_⟩
      exact List.forall_mem_cons.2 ⟨⟨f, by simp, rfl, .inl rfl⟩, hall⟩

theorem distinctAfter_of_distinctFields {c : Config α} {fs : List (ScoredField α)} (h : c.distinctFields = .ok fs) :
    c.fields ≠ [] ∧ distinctAfter [] c.fields = .ok fs := by
  have hne : c.fields ≠ [] := by
    intro hnil
    simp [distinctFields, hnil] at h
  rw [distinctFields, if_neg (by simpa using hne)] at h
  exact ⟨hne, h⟩

/-- The fields that are left are declared, and every declared field is left, up to its weight. -/
theorem mem_of_distinctFields {c : Config α} {fs : List (ScoredField α)} (h : c.distinctFields = .ok fs) :
    fs ⊆ c.fields ∧ ∀ f ∈ c.fields, ∃ g ∈ fs, g.name = f.name ∧ g.fuzzy = f.fuzzy := by
  obtain ⟨new, hnew, hsub, -, -, hall⟩ := of_distinctAfter (distinctAfter_of_distinctFields h).2 (by simp)
  obtain rfl : fs = new := hnew
  refine ⟨hsub.subset, fun f hf => ?_⟩
  obtain ⟨g, hg, hname, rfl | hsame⟩ := hall f hf
  · exact ⟨g, hg, hname, rfl⟩
  · exact ⟨g, hg, hname, ScoredField.fuzzy_of_beq hsame⟩

theorem mem_names_of_distinctFields {c : Config α} {fs : List (ScoredField α)} (h : c.distinctFields = .ok fs)
    {name : Text} (hname : name ∈ c.fields.map (·.name)) : name ∈ fs.map (·.name) := by
  obtain ⟨f, hf, rfl⟩ := List.mem_map.1 hname
  obtain ⟨g, hg, hgf, -⟩ := (mem_of_distinctFields h).2 f hf
  exact List.mem_map.2 ⟨g, hg, hgf⟩

theorem valid_of_distinctFields {c : Config α} {fs : List (ScoredField α)} (h : c.distinctFields = .ok fs) :
    fs ≠ [] ∧ (∀ f ∈ fs, f.Valid) ∧ (fs.map (·.name)).Nodup := by
  obtain ⟨hne, hafter⟩ := distinctAfter_of_distinctFields h
  obtain ⟨new, rfl, hsub, hvalid, hnodup, hall⟩ := of_distinctAfter hafter (by simp)
  refine ⟨?_, fun f hf => hvalid f (hsub.subset hf), hnodup⟩
  intro hnil
  obtain ⟨f, hf⟩ := List.exists_mem_of_ne_nil _ hne
  obtain ⟨g, hg, -⟩ := hall f hf
  rw [hnil] at hg
  exact List.not_mem_nil hg

theorem exists_of_validate {c : Config α} (h : c.validate = .ok ()) :
    ∃ fs, c.distinctFields = .ok fs ∧ fs ≠ [] ∧ (∀ f ∈ fs, f.Valid) ∧ (fs.map (·.name)).Nodup := by
  cases hfields : c.distinctFields with
  | error e =>
    rw [validate, hfields] at h
    simp [bind, Except.bind] at h
  | ok fs => exact ⟨fs, rfl, valid_of_distinctFields hfields⟩

theorem threshold_of_validate {c : Config α} (h : c.validate = .ok ()) :
    Scalar.ofNat 0 ≤ c.fuzzyThreshold ∧ c.fuzzyThreshold ≤ Scalar.ofNat 1 := by
  refine Decidable.byContradiction fun hthreshold => ?_
  obtain ⟨fs, hfs, -⟩ := exists_of_validate h
  rw [validate, hfs] at h
  simp [bind, Except.bind, hthreshold, throw, throwThe, MonadExceptOf.throw] at h

theorem excerptLength_of_validate {c : Config α} (h : c.validate = .ok ()) : 0 < c.excerptLength := by
  refine Nat.pos_of_ne_zero fun hzero => ?_
  obtain ⟨fs, hfs, -⟩ := exists_of_validate h
  rw [validate, hfs] at h
  simp only [bind, Except.bind, pure, Except.pure, throw, throwThe, MonadExceptOf.throw, hzero, if_true] at h
  repeat' split at h
  all_goals exact absurd h (by simp)

end Config

theorem Index.build_eq {ι : Type} [Searchable ι] (items : List ι) {c : Config α} (h : c.validate = .ok ())
    {fs : List (ScoredField α)} (hfs : c.distinctFields = .ok fs) :
    build items c = .ok ⟨fs, newNames (fs.map (·.name)) c.filterFields, items.map
      (IndexedItem.ofItem c.idField (fs.map (·.name)) (newNames (fs.map (·.name)) c.filterFields))⟩ := by
  rw [build, h, hfs]
  rfl

/-- An accepted configuration has an index of any collection: of each item, in order, its entry. -/
theorem Index.exists_build {ι : Type} [Searchable ι] (items : List ι) {c : Config α} (h : c.validate = .ok ()) :
    ∃ x, build items c = .ok x ∧ x.fields ≠ [] ∧ (∀ f ∈ x.fields, f.Valid) ∧
      x.items = items.map (IndexedItem.ofItem c.idField (x.fields.map (·.name)) x.filterFields) := by
  obtain ⟨fs, hfs, hne, hvalid, -⟩ := Config.exists_of_validate h
  exact ⟨_, build_eq items h hfs, hne, hvalid, rfl⟩

end ContentSearch
