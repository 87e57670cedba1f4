import ContentSearch.Proofs.Engine
import ContentSearch.Proofs.Search.Filtering
import ContentSearch.Proofs.Search.Itemwise
import Mathlib.Logic.Relation

/-!
# What an index is made of

The scored fields, the names that are filtered on and the entries of the items are three lists that belong together by the
places in them (`Index.Structured`).  Which names there are depends on the first declaration of each one alone, so that a
declaration that has been made already has no effect (`Config.Redeclares`), neither on what is accepted nor on what is found.

* `Config.distinctAfter_again`, `Index.newNames_again`: a further declaration leaves the fields and the names as they are;
* `Config.Redeclares.build_eq`: and so the index;
* `Index.NamedBy.structured_covering`: an index of an accepted configuration has its names and its entries in place;
* `Index.build_structured`: whether there is an index, what it is made of, and that redundant declarations do not matter.
-/

namespace ContentSearch

variable {ι α : Type} [Scalar α]

/-! ## declarations that are made again -/

/-- A field that may be declared counts as the same as itself, since its weight is a number. -/
theorem ScoredField.Valid.beq_self [Scalar.LawfulOrder α] {f : ScoredField α} (hf : f.Valid) : (f == f) = true := by
  have hle := Scalar.LawfulOrder.le_self_of_isFinite hf.finite
  have hweight : (f.weight == f.weight) = true := Scalar.LawfulOrder.beq_iff.2 ⟨hle, hle⟩
  show (f.name == f.name && (f.weight == f.weight && f.fuzzy == f.fuzzy)) = true
  simp [hweight]

namespace Config

/-- A configuration that declares more than another one, but nothing new: a scored field behind the same declaration, a name
that is filtered on behind the same name, or, at any place, the name of a scored field as one that is filtered on. -/
inductive Redeclares (c : Config α) : Config α → Prop
  | scored {before after : List (ScoredField α)} {f : ScoredField α} (fields : c.fields = before ++ after) (mem : f ∈ before) :
      Redeclares c { c with fields := before ++ f :: after }
  | filtered {before after : List Text} {n : Text} (names : c.filterFields = before ++ after) (mem : n ∈ before) :
      Redeclares c { c with filterFields := before ++ n :: after }
  | both {before after : List Text} {n : Text} (names : c.filterFields = before ++ after) (mem : n ∈ c.fields.map (·.name)) :
      Redeclares c { c with filterFields := before ++ n :: after }

/-- Declarations are gone through one after another. -/
theorem distinctAfter_append (seen l m : List (ScoredField α)) :
    distinctAfter seen (l ++ m) = (distinctAfter seen l).bind fun fs => distinctAfter fs m := by
  induction l generalizing seen with
  | nil => rfl
  | cons f l ih =>
    simp only [List.cons_append, distinctAfter]
    split
    · rfl
    · split
      · rfl
      · split
        · split
          · exact ih seen
          · rfl
        · exact ih (seen ++ [f])

/-- A declaration is passed over where a field is kept that counts as the same. -/
theorem distinctAfter_cons_of_mem {seen rest : List (ScoredField α)} {f g : ScoredField α} (hseen : (seen.map (·.name)).Nodup)
    (hf : f.Valid) (hg : g ∈ seen) (hname : g.name = f.name) (hsame : (g == f) = true) :
    distinctAfter seen (f :: rest) = distinctAfter seen rest := by
  have hfind : seen.find? (fun g => g.name = f.name) = some g := by
    have hsome : (seen.find? fun g => g.name = f.name).isSome := List.find?_isSome.2 ⟨g, hg, by simpa using hname⟩
    obtain ⟨g', hg'⟩ := Option.isSome_iff_exists.1 hsome
    have hname' : g'.name = f.name := by simpa using List.find?_some hg'
    obtain rfl : g' = g := List.inj_on_of_nodup_map hseen (List.mem_of_find?_eq_some hg') hg (hname'.trans hname.symm)
    exact hg'
  have hweight : ¬ (!Scalar.isFinite f.weight || decide (f.weight ≤ Scalar.ofNat 0)) = true := by
    simp [hf.finite, hf.positive]
  rw [distinctAfter, if_neg (by simpa using hf.name), if_neg hweight, hfind]
  exact if_pos hsame

/-- **A field that is declared again** behind its declaration is not kept again, and not refused either. -/
theorem distinctAfter_again [Scalar.LawfulOrder α] {before : List (ScoredField α)} {f : ScoredField α} (hf : f ∈ before)
    (after : List (ScoredField α)) : distinctAfter [] (before ++ f :: after) = distinctAfter [] (before ++ after) := by
  rw [distinctAfter_append, distinctAfter_append]
  cases hbefore : distinctAfter [] before with
  | error e => rfl
  | ok fs =>
    obtain ⟨-, -, -, hvalid, hnodup, hall⟩ := of_distinctAfter hbefore List.nodup_nil
    obtain ⟨g, hg, hname, rfl | hsame⟩ := hall f hf
    · exact distinctAfter_cons_of_mem hnodup (hvalid g hf) hg rfl (hvalid g hf).beq_self
    · exact distinctAfter_cons_of_mem hnodup (hvalid f hf) hg hname hsame

end Config

/-- **A name that is given again**, or that is taken, is not new. -/
theorem Index.newNames_again {taken before : List Text} {n : Text} (hn : n ∈ taken ∨ n ∈ before) (after : List Text) :
    newNames taken (before ++ n :: after) = newNames taken (before ++ after) := by
  induction before generalizing taken with
  | nil =>
    have htaken : n ∈ taken := by simpa using hn
    rw [List.nil_append, newNames, if_pos (by simpa using htaken), List.nil_append]
  | cons m before ih =>
    rw [List.cons_append, List.cons_append, newNames, newNames]
    by_cases hm : m ∈ taken
    · have hn' : n ∈ taken ∨ n ∈ before := by
        rcases hn with hn | hn
        · exact .inl hn
        · rcases List.mem_cons.1 hn with rfl | hn
          · exact .inl hm
          · exact .inr hn
      rw [if_pos (by simpa using hm), if_pos (by simpa using hm), ih hn']
    · have hn' : n ∈ m :: taken ∨ n ∈ before := by
        rcases hn with hn | hn
        · exact .inl (List.mem_cons_of_mem m hn)
        · rcases List.mem_cons.1 hn with rfl | hn
          · exact .inl List.mem_cons_self
          · exact .inr hn
      rw [if_neg (by simpa using hm), if_neg (by simpa using hm), ih hn']

/-! ## indexes of configurations that declare something again -/

section Redeclared

variable [Searchable ι] {c c' : Config α}

/-- An index depends on the fields that are left, on the new names, and on whether the configuration is accepted. -/
theorem Index.build_congr (items : List ι) (hvalidate : c'.validate = c.validate)
    (hfields : c'.distinctFields = c.distinctFields) (hid : c'.idField = c.idField)
    (hnames : ∀ fs, c.distinctFields = .ok fs →
      newNames (fs.map (·.name)) c'.filterFields = newNames (fs.map (·.name)) c.filterFields) :
    build items c' = build items c := by
  unfold build
  rw [hvalidate, hfields, hid]
  cases hfs : c.distinctFields with
  | error e => rfl
  | ok fs =>
    simp only [bind, Except.bind, hnames fs hfs]

namespace Config.Redeclares

theorem distinctFields_eq [Scalar.LawfulOrder α] (h : c.Redeclares c') : c'.distinctFields = c.distinctFields := by
  cases h with
  | @scored before after f hfields hmem =>
    have hne : before ≠ [] := List.ne_nil_of_mem hmem
    have hempty : (before ++ f :: after).isEmpty = false ∧ (before ++ after).isEmpty = false := by simp [hne]
    rw [distinctFields, distinctFields, hfields, hempty.2]
    simp only [hempty.1, distinctAfter_again hmem]
  | filtered => rfl
  | both => rfl

theorem validate_eq [Scalar.LawfulOrder α] (h : c.Redeclares c') : c'.validate = c.validate := by
  have hfields := h.distinctFields_eq
  unfold validate
  rw [hfields]
  cases h <;> rfl

/-- **A redundant declaration does not change the index.** -/
theorem build_eq [Scalar.LawfulOrder α] (h : c.Redeclares c') (items : List ι) :
    Index.build items c' = Index.build items c := by
  refine Index.build_congr items h.validate_eq h.distinctFields_eq (by cases h <;> rfl) ?_
  intro fs hfs
  cases h with
  | scored => rfl
  | @filtered before after n hnames hmem =>
    rw [hnames]
    exact Index.newNames_again (.inr hmem) after
  | @both before after n hnames hmem =>
    rw [hnames]
    exact Index.newNames_again (.inl (mem_names_of_distinctFields hfs hmem)) after

omit [Searchable ι] in
theorem search_eq [PatternCompiler] (h : c.Redeclares c') (items : List ι) (x : Index α) (q : Query) :
    search items x q c' = search items x q c := by
  cases h <;> rfl

end Config.Redeclares

end Redeclared

/-! ## the parts of an index -/

namespace Index

variable [Searchable ι]

/-- The entry of an item under the names of an index: for each scored field and for each name that is filtered on, at the same
place, one indexed attribute. -/
structure Describes (x : Index α) (item : ι) (e : IndexedItem) : Prop where
  fields : List.Forall₂ (fun f entry => entry = IndexedField.ofAttribute item f.name) x.fields e.fields
  filterFields : List.Forall₂ (fun name entry => entry = IndexedField.ofAttribute item name) x.filterFields e.filterFields

/-- The parts of an index of a collection belong together. -/
structure Structured (x : Index α) (c : Config α) (items : List ι) : Prop where
  /-- The scored fields are declared, and stand in the order of the first declarations of their names. -/
  fields : x.fields.Sublist c.fields ∧ x.fields.map (·.name) = (c.fields.map (·.name)).eraseDups
  nodup_fields : (x.fields.map (·.name)).Nodup
  filterFields : x.filterFields = (c.filterFields.filter fun n => n ∉ x.fields.map (·.name)).eraseDups
  nodup_filterFields : x.filterFields.Nodup
  disjoint : ∀ n ∈ x.filterFields, n ∉ x.fields.map (·.name)
  /-- There is one entry for each item, in the order of the collection. -/
  entries : List.Forall₂ x.Describes items x.items
  /-- Where the name in a filter points, every entry has an indexed attribute. -/
  resolves : ∀ name r, x.resolve? name = some r → ∀ e ∈ x.items, (e.entry? r).isSome = true

omit [Scalar α] in
theorem describes_entryOf (x : Index α) (c : Config α) (item : ι) : x.Describes item (x.entryOf c item) := by
  constructor
  · show List.Forall₂ _ x.fields ((x.fields.map (·.name)).map (IndexedField.ofAttribute item))
    rw [List.map_map, List.forall₂_map_right_iff]
    exact List.forall₂_same.2 fun _ _ => rfl
  · show List.Forall₂ _ x.filterFields (x.filterFields.map (IndexedField.ofAttribute item))
    rw [List.forall₂_map_right_iff]
    exact List.forall₂_same.2 fun _ _ => rfl

/-- **The parts of an index belong together** if its names are those of a configuration and its entries those of the items. -/
theorem NamedBy.structured_covering {x : Index α} {c : Config α} (hx : x.NamedBy c) (items : List ι) :
    (x.covering c items).Structured c items := by
  have hsublist : x.fields.Sublist c.fields := by
    obtain ⟨new, hnew, hsub, -⟩ :=
      Config.of_distinctAfter (Config.distinctAfter_of_distinctFields hx.fields).2 List.nodup_nil
    rw [hnew, List.nil_append]
    exact hsub
  have hfilter : x.filterFields = (c.filterFields.filter fun n => n ∉ x.fields.map (·.name)).eraseDups :=
    hx.filterFields.trans (newNames_eq ..)
  refine ⟨⟨hsublist, hx.names⟩, hx.nodup, hfilter, ?_, ?_, ?_, ?_⟩
  · show x.filterFields.Nodup
    rw [hfilter]
    exact nodup_eraseDups _
  · intro n hn
    have hn : n ∈ x.filterFields := hn
    rw [hfilter, List.mem_eraseDups, List.mem_filter] at hn
    exact of_decide_eq_true hn.2
  · show List.Forall₂ _ items (items.map (x.entryOf c))
    rw [List.forall₂_map_right_iff]
    exact List.forall₂_same.2 fun item _ => describes_entryOf (x.covering c items) c item
  · intro name r hr e he
    obtain ⟨item, -, rfl⟩ := List.mem_map.1 he
    -- the name is found among the names of the index, and there every entry has an attribute
    have hplace := hx.map_nameAt?_resolve? name
    have hr : x.resolve? name = some r := hr
    rw [hr, Option.map_some] at hplace
    obtain ⟨a, -, ha⟩ := Option.map_eq_some_iff.1 hplace.symm
    rw [x.entry_entryOf, ← ha]
    rfl

/-- **What an index is made of.**  There is an index of a collection exactly if the configuration is accepted, whatever the
items, and otherwise the same is wrong. Its parts belong together: the names of the scored fields and those that are only
filtered on come once each, in the order of their first declarations, each entry has an attribute at the place of each name,
and so has every entry wherever the name in a filter points. Declarations that say nothing new, as many as there may be, change
neither the index nor what is found. -/
theorem build_structured [PatternCompiler] [Scalar.LawfulOrder α] (items : List ι) (c : Config α) :
    ((∃ x, build items c = .ok x) ↔ c.validate = .ok ()) ∧
      (∀ e, build items c = .error e ↔ c.validate = .error e) ∧
      (∀ x, build items c = .ok x → x.Structured c items) ∧
      ∀ c', Relation.ReflTransGen Config.Redeclares c c' →
        build items c' = build items c ∧ ∀ x q, search items x q c' = search items x q c := by
  refine ⟨⟨?_, ?_⟩, ?_, ?_, ?_⟩
  · rintro ⟨x, hx⟩
    exact validate_of_build hx
  · intro hc
    obtain ⟨x, hx, -⟩ := exists_build items hc
    exact ⟨x, hx⟩
  · intro e
    cases hc : c.validate with
    | error e' =>
      rw [build, hc]
      simp [bind, Except.bind]
    | ok u =>
      obtain ⟨x, hx, -⟩ := exists_build items hc
      simp [hx]
  · intro x hx
    obtain ⟨x₀, hnamed, hbuild⟩ := exists_build_namedBy ι (validate_of_build hx)
    obtain rfl := Except.ok.inj (hx.symm.trans (hbuild items))
    exact hnamed.structured_covering items
  · intro c' h
    induction h with
    | refl => exact ⟨rfl, fun _ _ => rfl⟩
    | tail _ hstep ih =>
      obtain ⟨hbuild, hsearch⟩ := ih
      refine ⟨(hstep.build_eq items).trans hbuild, fun x q => ?_⟩
      exact (hstep.search_eq items x q).trans (hsearch x q)

def taggedTitles : Config Float32 := { singleTitles with filterFields := ["tags".toList] }

/-- `taggedTitles` with each declaration made twice, and with titles among what is filtered on. -/
def redeclaredTitles : Config Float32 :=
  { singleTitles with
    fields := [.ofName "title".toList, .ofName "title".toList]
    filterFields := ["title".toList, "tags".toList, "tags".toList] }

theorem redeclares_titles : Relation.ReflTransGen Config.Redeclares taggedTitles redeclaredTitles := by
  have hscored := @Config.Redeclares.scored Float32 taggedTitles [.ofName "title".toList] [] (.ofName "title".toList) rfl
    List.mem_cons_self
  have hfiltered := @Config.Redeclares.filtered Float32
    { taggedTitles with fields := [.ofName "title".toList, .ofName "title".toList] } ["tags".toList] [] "tags".toList rfl
    List.mem_cons_self
  have hboth := @Config.Redeclares.both Float32
    { taggedTitles with
      fields := [.ofName "title".toList, .ofName "title".toList]
      filterFields := ["tags".toList, "tags".toList] }
    [] ["tags".toList, "tags".toList] "title".toList rfl List.mem_cons_self
  exact ((Relation.ReflTransGen.single hscored).tail hfiltered).tail hboth

theorem build_structured_titles :
    ∃ x : Index Float32, build [titled "Rust".toList] taggedTitles = .ok x ∧
      x.Structured taggedTitles [titled "Rust".toList] ∧
      build [titled "Rust".toList] redeclaredTitles = .ok x := by
  obtain ⟨⟨-, hexists⟩, -, hparts, hsame⟩ := build_structured [titled "Rust".toList] taggedTitles
  obtain ⟨x, hx⟩ := hexists (by decide +kernel)
  refine ⟨x, hx, hparts x hx, ?_⟩
  rw [(hsame redeclaredTitles redeclares_titles).1, hx]

end Index
end ContentSearch
