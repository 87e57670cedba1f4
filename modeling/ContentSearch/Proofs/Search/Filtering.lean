import ContentSearch.Proofs.Config.Names
import ContentSearch.Proofs.Query.Requests
import ContentSearch.Proofs.Search.Itemwise

/-!
# What filters keep

A query without terms and phrases keeps items by their values alone. `Config.Admits` says by the declarations of a
configuration and the values of an item which ones it keeps.

* `Index.NamedBy.meets_iff_admits`: the entry of an item meets the query exactly if the item is admitted;
* `search_filterOnly`: such a search returns the items that are admitted, in the order of the collection;
* `filters_exact`: this for every typed query;
* `Query.parse_filter`, `Config.filtered?_lowercase_iff`: what a filter is read as, and when the name that is read stands for
  the attribute that was typed;
* `filter_typed`: so an attribute is filtered on as long as the two ways of ignoring case agree on its name, and else it is
  not (`capital_missed`).
-/

namespace ContentSearch

variable {ι α : Type} [Searchable ι]

/-! ## values -/

/-- A single value of a value: an item of a list, or else the text of anything but null. -/
inductive FieldValue.IsSingle : FieldValue → Text → Prop
  | item {ts : List Text} {t : Text} (h : t ∈ ts) : IsSingle (.list ts) t
  | whole {v : FieldValue} (hlist : ∀ ts, v ≠ .list ts) (hnull : v ≠ .null) : IsSingle v v.toText

theorem FieldValue.mem_values_iff {v : FieldValue} {u : Text} : u ∈ v.values ↔ v.IsSingle u := by
  constructor
  · intro h
    cases v with
    | list ts => exact .item h
    | null => exact absurd h List.not_mem_nil
    | _ =>
      rw [List.mem_singleton.1 h]
      exact .whole (by simp) (by simp)
  · rintro (h | ⟨hlist, hnull⟩)
    · exact h
    · cases v with
      | list ts => exact absurd rfl (hlist ts)
      | null => exact absurd rfl hnull
      | _ => exact List.mem_singleton_self _

/-- One of the single values of an attribute of an item is the given text, without outer white space and in lowercase. -/
def HasValue (item : ι) (name value : Text) : Prop :=
  ∃ v u, attribute? item name = some v ∧ v.IsSingle u ∧ Text.lowercase (Text.trim u) = value

theorem mem_values_ofAttribute_iff {item : ι} {name value : Text} :
    value ∈ (IndexedField.ofAttribute item name).values ↔ HasValue item name value := by
  unfold HasValue IndexedField.ofAttribute
  cases attribute? item name with
  | none => simp [IndexedField.empty]
  | some v => simp [IndexedField.ofValue, FieldValue.mem_values_iff]

instance (item : ι) (name value : Text) : Decidable (HasValue item name value) :=
  decidable_of_iff ((IndexedField.ofAttribute item name).hasValue value = true)
    (List.contains_iff_mem.trans mem_values_ofAttribute_iff)

/-! ## items that are admitted -/

/-- An item has one of the values that each filter asks for, in the attribute that the name of the filter stands for, and no
exclusion occurs in the text of a declared attribute. -/
structure Config.Admits (c : Config α) (q : Query) (item : ι) : Prop where
  filters : ∀ name values, (name, values) ∈ q.filters.toList →
    ∃ a, c.filtered? name = some a ∧ ∃ value ∈ values, HasValue item a value
  exclusions : ∀ t ∈ q.exclusions, ∀ name ∈ c.attributes, ∀ v, attribute? item name = some v →
    ¬ t <:+: Text.lowercase v.toText

instance (c : Config α) (q : Query) (item : ι) : Decidable (c.Admits q item) :=
  decidable_of_iff
    ((∀ f ∈ q.filters.toList, ∃ a ∈ c.filtered? f.1, ∃ value ∈ f.2, HasValue item a value) ∧
      ∀ t ∈ q.exclusions, ∀ name ∈ c.attributes, ∀ v ∈ attribute? item name, ¬ t <:+: Text.lowercase v.toText)
    ⟨fun h => ⟨fun name values hf => h.1 (name, values) hf, h.2⟩, fun h => ⟨fun f hf => h.filters f.1 f.2 hf, h.exclusions⟩⟩

namespace Index

theorem entry_entryOf (x : Index α) (c : Config α) (item : ι) (r : AttributeRef) :
    IndexedItem.entry? (x.entryOf c item) r = (x.nameAt? r).map (IndexedField.ofAttribute item) := by
  cases r with
  | scored n =>
    show ((x.fields.map (·.name)).map (IndexedField.ofAttribute item))[n]? = _
    rw [List.getElem?_map, List.getElem?_map]
    rfl
  | filter n => exact List.getElem?_map

theorem admits_iff {x : Index α} {c : Config α} {q : Query} {item : ι} :
    x.admits c q item = true ↔ x.Meets q (x.entryOf c item) := by
  unfold admits
  cases hfilters : x.resolveFilters? q with
  | none => simp [not_meets_of_resolveFilters? hfilters]
  | some filters => exact keeps_iff hfilters

variable [Scalar α]

/-- The entry of an item meets a query without phrases exactly if the item is admitted. -/
theorem NamedBy.meets_iff_admits {x : Index α} {c : Config α} (hx : x.NamedBy c) {q : Query} (hphrases : q.phrases = [])
    (hexclusions : ∀ t ∈ q.exclusions, t ≠ []) {item : ι} : x.Meets q (x.entryOf c item) ↔ c.Admits q item := by
  have hfields : (x.entryOf c item).fields ++ (x.entryOf c item).filterFields =
      (x.fields.map (·.name) ++ x.filterFields).map (IndexedField.ofAttribute item) := List.map_append.symm
  constructor
  · intro h
    refine ⟨fun name values hf => ?_, fun t ht name hname v hv hinfix => ?_⟩
    · obtain ⟨r, f, value, hr, hentry, hvalue, hmem⟩ := h.filters name values hf
      rw [x.entry_entryOf] at hentry
      obtain ⟨a, ha, rfl⟩ := Option.map_eq_some_iff.1 hentry
      exact ⟨a, hx.filtered?_eq_some_iff.2 ⟨r, hr, ha⟩, value, hvalue, mem_values_ofAttribute_iff.1 hmem⟩
    · refine h.exclusions t ht (.ofAttribute item name) ?_ ?_
      · rw [hfields]
        exact List.mem_map_of_mem (hx.mem_names_iff.2 hname)
      · rwa [IndexedField.lower_ofAttribute hv]
  · intro h
    refine ⟨fun name values hf => ?_, fun t ht f hf => ?_, by simp [hphrases]⟩
    · obtain ⟨a, ha, value, hvalue, hhas⟩ := h.filters name values hf
      obtain ⟨r, hr, hname⟩ := hx.filtered?_eq_some_iff.1 ha
      refine ⟨r, _, value, hr, ?_, hvalue, mem_values_ofAttribute_iff.2 hhas⟩
      rw [x.entry_entryOf, hname]
      rfl
    · rw [hfields] at hf
      obtain ⟨name, hname, rfl⟩ := List.mem_map.1 hf
      cases hv : attribute? item name with
      | none =>
        rw [IndexedField.ofAttribute, hv]
        exact fun hinfix => hexclusions t ht (List.infix_nil.1 hinfix)
      | some v =>
        rw [IndexedField.lower_ofAttribute hv]
        exact h.exclusions t ht name (hx.mem_names_iff.1 hname) v hv

end Index

section FilterOnly

variable [Scalar α]

/-- **A search without terms and phrases returns the items that are admitted**, in the order of the collection. -/
theorem search_filterOnly [PatternCompiler] {x : Index α} {c : Config α} (hx : x.NamedBy c) (items : List ι) {q : Query}
    (hq : q.filterOnly = true) (hphrases : q.phrases = []) (hexclusions : ∀ t ∈ q.exclusions, t ≠ []) :
    search items (x.covering c items) q { c with maxResults := none } =
      .ok ((items.zipIdx.filter fun p => c.Admits q p.1).map fun p => ⟨p.1, p.2, Scalar.ofNat 1, [], []⟩) := by
  have hadmits : ∀ item : ι, x.admits c q item = decide (c.Admits q item) := by
    intro item
    rw [Bool.eq_iff_iff, decide_eq_true_eq, Index.admits_iff, hx.meets_iff_admits hphrases hexclusions]
  have hmet := x.met_covering c q items
  simp only [hadmits] at hmet
  unfold search
  unfold Index.met at hmet
  cases hfilters : (x.covering c items).resolveFilters? q with
  | none =>
    rw [hfilters] at hmet
    rw [List.map_eq_nil_iff.1 hmet.symm]
    rfl
  | some filters =>
    rw [hfilters] at hmet
    have hmade : ((items.zipIdx.filter fun p => c.Admits q p.1).map (·.2)).mapM (Hit.unscored (α := α) items) =
        .ok ((items.zipIdx.filter fun p => c.Admits q p.1).map fun p => ⟨p.1, p.2, Scalar.ofNat 1, [], []⟩) := by
      rw [List.mapM_map]
      refine mapM_eq_ok_map fun p hp => ?_
      exact Hit.unscored_eq_ok (List.mem_zipIdx_iff_getElem?.1 (List.mem_of_mem_filter hp))
    dsimp only at hmet ⊢
    rw [if_pos hq, hmet, hmade]
    rfl

end FilterOnly

/-- **Filters are exact.**  For every collection, every accepted configuration and every query text without terms and
phrases, the search returns exactly the items that are admitted, in the order of the collection, each with score 1 and with
nothing reported; and none at all if the name of some filter stands for no attribute. -/
theorem filters_exact {ι α : Type} [PatternCompiler] [Searchable ι] [Scalar α] (items : List ι) (c : Config α) (t : Text)
    (hc : c.validate = .ok ()) (hq : (Query.parse t).terms = [] ∧ (Query.parse t).phrases = []) :
    ∃ x, Index.build items c = .ok x ∧
      search items x (.parse t) { c with maxResults := none } =
        .ok ((items.zipIdx.filter fun p => c.Admits (.parse t) p.1).map fun p => ⟨p.1, p.2, Scalar.ofNat 1, [], []⟩) ∧
      ((∃ f ∈ (Query.parse t).filters.toList, c.filtered? f.1 = none) →
        search items x (.parse t) { c with maxResults := none } = .ok []) := by
  have hwell := Query.parse_wellFormed t
  obtain ⟨x, hx, hbuild⟩ := Index.exists_build_namedBy ι hc
  have hsearch := search_filterOnly hx items (hwell.filterOnly.2 hq) hq.2 fun u hu =>
    (hwell.exclusions u hu).1.1
  refine ⟨_, hbuild items, hsearch, ?_⟩
  rintro ⟨⟨name, values⟩, hf, hnone⟩
  have hnil : (items.zipIdx.filter fun p => c.Admits (.parse t) p.1) = [] := by
    refine List.filter_eq_nil_iff.2 fun p _ hp => ?_
    obtain ⟨a, ha, -⟩ := (of_decide_eq_true hp).filters name values hf
    exact Option.some_ne_none a (ha.symm.trans hnone)
  rw [hsearch, hnil]
  rfl

/-- A configuration that searches titles and filters on tags. -/
def tagged : Config Rat := { titles with filterFields := ["Tags".toList] }

def taggedItem (title : Text) (tags : List Text) : Json :=
  .object [("title".toList, .string title), ("Tags".toList, .array (tags.map .string))]

/-- Guides about two languages, one of which has no tags. -/
def guides : List Json :=
  [taggedItem "Rust guide".toList [" Rust".toList, "web".toList], taggedItem "Go guide".toList [],
    taggedItem "Go and Rust".toList ["rust".toList]]

theorem filters_exact_guides :
    (∃ x, Index.build guides tagged = .ok x ∧ search guides x (.parse "tag:RUST -go".toList) tagged =
      .ok ((guides.zipIdx.filter fun p => tagged.Admits (.parse "tag:RUST -go".toList) p.1).map
        fun p => ⟨p.1, p.2, 1, [], []⟩)) ∧
      foundAmong tagged guides "tag:RUST -go".toList = some [0] := by
  obtain ⟨x, hx, hsearch, -⟩ := filters_exact guides tagged "tag:RUST -go".toList (by decide +kernel) (by decide +kernel)
  exact ⟨⟨x, hx, hsearch⟩, by decide +kernel⟩

/-! ## names as they are typed -/

namespace Query

/-- A text that can be typed as the name in a filter. -/
structure IsTypedName (t : Text) : Prop where
  word : Text.IsWord t
  not_colon : ':' ∉ t
  not_quoted : '"' ∉ t
  not_dashed : ∀ u, t ≠ '-' :: u

/-- A filter is read as a filter, and as nothing else. -/
theorem parse_filter {name value : Text} (hname : IsTypedName name) (hvalue : Text.IsWord value) (hquoted : '"' ∉ value) :
    parse (name ++ ':' :: value) = (empty.addToken (.filter (Text.lowercase name) (Text.lowercase value))).refresh := by
  have hword : Text.IsWord (name ++ ':' :: value) := by
    refine ⟨by simp, fun c hc => ?_⟩
    rcases List.mem_append.1 hc with hc | hc
    · exact hname.word.2 c hc
    · rcases List.mem_cons.1 hc with rfl | hc
      · decide
      · exact hvalue.2 c hc
  have hcount : (name ++ ':' :: value).count '"' = 0 := by
    refine List.count_eq_zero_of_not_mem ?_
    simp [hname.not_quoted, hquoted]
  have htoken : Token.ofText (name ++ ':' :: value) = .filter (Text.lowercase name) (Text.lowercase value) :=
    Token.reads_iff.1 (.filter hname.word.1 hvalue.1 hname.not_colon hname.not_dashed)
  rw [parse, unquote_of_count_le (by rw [hcount]; exact Nat.zero_le 1)]
  simp only [Text.words_of_isWord hword, List.map_cons, List.map_nil, htoken]
  rfl

end Query

namespace Config

variable {c : Config α} {name a : Text}

theorem named?_eq_some (h : c.named? name = some a) :
    a ∈ c.attributes ∧ Text.asciiLowercase a = Text.asciiLowercase name := by
  have hsame : Index.sameName a name = true := List.find?_some (p := fun a => Index.sameName a name) h
  exact ⟨List.mem_of_find?_eq_some h, eq_of_beq hsame⟩

/-- **What a typed name stands for.**  Where the attributes differ in more than case, a name that is typed in the case of an
attribute, and read in lowercase, stands for this attribute exactly if its capitals are ASCII letters. -/
theorem filtered?_lowercase_iff (hname : name ∈ c.attributes)
    (hdistinct : ∀ a ∈ c.attributes, ∀ b ∈ c.attributes, Text.lowercase a = Text.lowercase b → a = b) :
    c.filtered? (Text.lowercase name) = some name ↔ Text.asciiLowercase name = Text.lowercase name := by
  constructor
  · intro h
    rcases Option.or_eq_some_iff.1 h with h | ⟨-, h⟩
    · have heq := (named?_eq_some h).2
      rwa [Text.asciiLowercase_lowercase] at heq
    · -- a lowercase text is no shorter than the text, so that no `s` can stand after it
      have hlength := congrArg List.length (named?_eq_some h).2
      have hle := Text.length_le_lowercaseAfter [] name
      simp only [Text.asciiLowercase, List.length_map, List.length_append, List.length_singleton] at hlength
      have hsame : (Text.lowercase name).length = (Text.lowercaseAfter [] name).length := rfl
      omega
  · intro h
    have hsame : Index.sameName name (Text.lowercase name) = true := by
      rw [Index.sameName, Text.asciiLowercase_lowercase, h, beq_self_eq_true]
    have hfound : (c.named? (Text.lowercase name)).isSome := List.find?_isSome.2 ⟨name, hname, hsame⟩
    obtain ⟨a, ha⟩ := Option.isSome_iff_exists.1 hfound
    obtain ⟨hmem, heq⟩ := named?_eq_some ha
    rw [Text.asciiLowercase_lowercase] at heq
    have hlower : Text.lowercase a = Text.asciiLowercase a :=
      Text.lowercase_eq_asciiLowercase fun d hd => Text.lowercaseChar_of_mem_lowercaseAfter (heq ▸ hd)
    obtain rfl : a = name := hdistinct a hmem name hname (hlower.trans heq)
    exact Option.or_eq_some_iff.2 (.inl ha)

end Config

/-- **Filters that are typed.**  Under an accepted configuration of which the attributes differ in more than case, each name
of an attribute and each value that can be typed as a filter are read as one filter, with both in lowercase. Any index
resolves the name to this attribute exactly if its capitals are ASCII letters, and then the search returns exactly the items
that have the value there, up to case and outer white space. -/
theorem filter_typed {ι α : Type} [PatternCompiler] [Searchable ι] [Scalar α] (items : List ι) (c : Config α)
    (name value : Text) (hc : c.validate = .ok ())
    (hdistinct : ∀ a ∈ c.attributes, ∀ b ∈ c.attributes, Text.lowercase a = Text.lowercase b → a = b)
    (hname : name ∈ c.attributes) (htyped : Query.IsTypedName name) (hvalue : Text.IsWord value) (hquoted : '"' ∉ value) :
    (Query.parse (name ++ ':' :: value)).filters.toList = [(Text.lowercase name, [Text.lowercase value])] ∧
      ∃ x, Index.build items c = .ok x ∧
        ((∃ r, x.resolve? (Text.lowercase name) = some r ∧ x.nameAt? r = some name) ↔
          Text.asciiLowercase name = Text.lowercase name) ∧
        (Text.asciiLowercase name = Text.lowercase name →
          search items x (.parse (name ++ ':' :: value)) { c with maxResults := none } =
            .ok ((items.zipIdx.filter fun p => HasValue p.1 name (Text.lowercase value)).map
              fun p => ⟨p.1, p.2, Scalar.ofNat 1, [], []⟩)) := by
  have hparse := Query.parse_filter htyped hvalue hquoted
  have hfilters : (Query.parse (name ++ ':' :: value)).filters.toList = [(Text.lowercase name, [Text.lowercase value])] := by
    rw [hparse]
    rfl
  have hfiltered := Config.filtered?_lowercase_iff hname hdistinct
  obtain ⟨x, hx, hbuild⟩ := Index.exists_build_namedBy ι hc
  refine ⟨hfilters, _, hbuild items, hx.filtered?_eq_some_iff.symm.trans hfiltered, fun hcase => ?_⟩
  have hadmits : ∀ item : ι, c.Admits (.parse (name ++ ':' :: value)) item ↔ HasValue item name (Text.lowercase value) := by
    intro item
    constructor
    · intro h
      obtain ⟨a, ha, v, hv, hhas⟩ := h.filters _ _ (hfilters ▸ List.mem_singleton_self _)
      obtain rfl : name = a := Option.some.inj ((hfiltered.2 hcase).symm.trans ha)
      rwa [List.mem_singleton.1 hv] at hhas
    · intro h
      refine ⟨fun name' values hf => ?_, ?_⟩
      · rw [hfilters] at hf
        obtain ⟨rfl, rfl⟩ := Prod.mk.inj (List.mem_singleton.1 hf)
        exact ⟨name, hfiltered.2 hcase, _, List.mem_singleton_self _, h⟩
      · rw [hparse]
        exact fun t ht => absurd ht List.not_mem_nil
  have hexclusions : (Query.parse (name ++ ':' :: value)).exclusions = [] := by
    rw [hparse]
    rfl
  rw [search_filterOnly hx items (by rw [hparse]; rfl) (by rw [hparse]; rfl) (by simp [hexclusions])]
  simp only [hadmits]

theorem filter_typed_tags :
    ∃ x, Index.build guides tagged = .ok x ∧
      (∃ r, x.resolve? "tags".toList = some r ∧ x.nameAt? r = some "Tags".toList) ∧
      search guides x (.parse "Tags:RUST".toList) tagged =
        .ok ((guides.zipIdx.filter fun p => HasValue p.1 "Tags".toList "rust".toList).map fun p => ⟨p.1, p.2, 1, [], []⟩) ∧
      foundAmong tagged guides "Tags:RUST".toList = some [0, 2] := by
  have hlower : Text.lowercase "Tags".toList = "tags".toList := by decide +kernel
  have hvalue : Text.lowercase "RUST".toList = "rust".toList := by decide +kernel
  have hword : Text.IsWord "Tags".toList :=
    Text.isWord_of_mem_words (show "Tags".toList ∈ Text.words "Tags".toList by decide +kernel)
  have hword' : Text.IsWord "RUST".toList :=
    Text.isWord_of_mem_words (show "RUST".toList ∈ Text.words "RUST".toList by decide +kernel)
  obtain ⟨-, x, hx, hresolve, hsearch⟩ := filter_typed guides tagged "Tags".toList "RUST".toList (by decide +kernel)
    (by decide +kernel) (by decide +kernel) ⟨hword, by decide, by decide, by simp⟩ hword' (by decide)
  rw [hlower] at hresolve hsearch
  rw [hvalue] at hsearch
  exact ⟨x, hx, hresolve.2 (by decide +kernel), hsearch (by decide +kernel), by decide +kernel⟩

/-- A configuration with an attribute of which the first letter is no ASCII letter. -/
def labels : Config Rat := { Config.default with fields := [⟨"Étiquette".toList, 1, true⟩] }

/-- A configuration in which the plural of a name is another attribute. -/
def plurals : Config Rat := { Config.default with fields := [⟨"É".toList, 1, true⟩, ⟨"és".toList, 1, true⟩] }

/-- **Other capitals are missed.**  The item has the value in the attribute, but the name that is read is not found again,
and so the filter keeps nothing; in the second configuration it stands for another attribute. -/
theorem capital_missed :
    labels.validate = .ok () ∧
      (Query.parse "Étiquette:rust".toList).filters.toList = [("étiquette".toList, ["rust".toList])] ∧
      HasValue (Json.object [("Étiquette".toList, .string "rust".toList)]) "Étiquette".toList "rust".toList ∧
      labels.filtered? "étiquette".toList = none ∧
      foundAmong labels [.object [("Étiquette".toList, .string "rust".toList)]] "Étiquette:rust".toList = some [] ∧
      (Query.parse "É:rust".toList).filters.toList = [("é".toList, ["rust".toList])] ∧
      plurals.filtered? "é".toList = some "és".toList := by
  decide +kernel

end ContentSearch
