import ContentSearch.Proofs.Config.Names
import ContentSearch.Proofs.Query.Requests
import ContentSearch.Proofs.Search.Narrowing

/-!
# Texts that occur verbatim

* `Query.mem_exclusions_parse_iff`: what a typed query excludes;
* `Index.exists_build_names`: every configured attribute has its place in the index;
* `position_mem_met`: a search finds nothing but items that meet the query;
* `verbatim_found`: so an exclusion hits every attribute that contains it verbatim, and a phrase every such scored field, if
  the capital sigmas in it are final where they stand exactly if they are final in it by itself.

Other sigmas are lowered to different letters, and then what is in the text is not found (`final_sigma_missed`).
-/

namespace ContentSearch

/-! ## what a typed query excludes -/

namespace Query

theorem mem_exclusions_parse_iff {s t : Text} :
    t ∈ (parse s).exclusions ↔ ∃ w ∈ Text.words (unquote s).1, Token.ofText w = .exclusion t :=
  (asks_parse_iff (k := .exclusion t)).trans List.mem_map

end Query

/-! ## the attributes of an index -/

namespace Index

variable {ι α : Type} [Searchable ι] [Scalar α]

theorem exists_build_names (items : List ι) {c : Config α} (h : c.validate = .ok ()) :
    ∃ x, build items c = .ok x ∧ x.items = items.map (x.entryOf c) ∧
      (∀ name ∈ c.fields.map (·.name), name ∈ x.fields.map (·.name)) ∧
      ∀ name ∈ c.filterFields, name ∈ x.fields.map (·.name) ∨ name ∈ x.filterFields := by
  obtain ⟨fs, hfs, -⟩ := Config.exists_of_validate h
  refine ⟨_, build_eq items h hfs, rfl, ?_, ?_⟩
  · exact fun name hname => Config.mem_names_of_distinctFields hfs hname
  · exact fun name hname => mem_newNames hname

omit [Scalar α] in
theorem ofAttribute_mem_fields {x : Index α} {name : Text} (h : name ∈ x.fields.map (·.name)) (c : Config α) (item : ι) :
    IndexedField.ofAttribute item name ∈ (x.entryOf c item).fields :=
  List.mem_map_of_mem h

omit [Scalar α] in
theorem ofAttribute_mem_filterFields {x : Index α} {name : Text} (h : name ∈ x.filterFields) (c : Config α) (item : ι) :
    IndexedField.ofAttribute item name ∈ (x.entryOf c item).filterFields :=
  List.mem_map_of_mem h

end Index

/-! ## what a search finds -/

section Search

variable {ι α : Type} [Scalar α]

theorem Hit.position_of_unscored {items : List ι} {i : Nat} {h : Hit ι α} (hh : unscored items i = .ok h) :
    h.position = i := by
  obtain ⟨item, -, hh⟩ := exists_of_bind_eq_ok hh
  obtain rfl := Except.ok.inj hh
  rfl

theorem Hit.position_of_scored? {items : List ι} {entries : List IndexedItem} {s : Scorer α} {i : Nat} {h : Hit ι α}
    (hh : scored? items entries s i = .ok (some h)) : h.position = i := by
  obtain ⟨e, item, r, -, -, -, rfl⟩ := scored?_eq_some_iff.1 hh
  rfl

theorem position_mem_met [PatternCompiler] {items : List ι} {x : Index α} {q : Query} {c : Config α} {hits : List (Hit ι α)}
    (hsearch : search items x q c = .ok hits) {h : Hit ι α} (hh : h ∈ hits) : h.position ∈ x.met items.length q := by
  obtain ⟨i, hi, ⟨-, hmade⟩ | ⟨-, hmade⟩⟩ := exists_of_mem_search hsearch hh
  · rwa [Hit.position_of_unscored hmade]
  · rwa [Hit.position_of_scored? hmade]

end Search

/-- **What stands in a text verbatim is found.**  For every collection and every accepted configuration, a search that excludes
a word finds no item of which a configured attribute contains the word, and a quoted text is a phrase that every item meets
of which a scored attribute contains it; provided that each capital sigma in it is final where it stands exactly if it is
final in it by itself. -/
theorem verbatim_found {ι α : Type} [PatternCompiler] [Searchable ι] [Scalar α] (items : List ι) (c : Config α)
    (hc : c.validate = .ok ()) :
    ∃ x, Index.build items c = .ok x ∧ ∀ (i : Nat) (item : ι) (name : Text) (v : FieldValue) (before part after : Text),
      items[i]? = some item → attribute? item name = some v → v.toText = before ++ part ++ after →
      ('Σ' ∈ part → Text.SigmasAgree [] before.reverse part after) →
      (Text.IsWord part → name ∈ c.fields.map (·.name) ∨ name ∈ c.filterFields →
        ∀ t, '-' :: part ∈ Text.words (Query.unquote t).1 → ∀ (d : Config α) (hits : List (Hit ι α)),
          search items x (.parse t) d = .ok hits → ∀ h ∈ hits, h.position ≠ i) ∧
      (Text.trim part = part → name ∈ c.fields.map (·.name) → ∀ t, part ∈ (Query.unquote t).2 →
        (part ≠ [] → Text.lowercase part ∈ (Query.parse t).phrases) ∧
        (x.entryOf c item).anyFieldMentions (Text.lowercase part) = true) := by
  obtain ⟨x, hx, hitems, hscored, hfiltered⟩ := Index.exists_build_names items hc
  refine ⟨x, hx, ?_⟩
  intro i item name v before part after hitem hv htext hsigmas
  have hagree : Text.SigmasAgree [] before.reverse part after := by
    by_cases hmem : 'Σ' ∈ part
    · exact hsigmas hmem
    · exact Text.sigmasAgree_of_not_mem hmem
  have hinfix : Text.lowercase part <:+: (IndexedField.ofAttribute item name).lower := by
    rw [IndexedField.lower_ofAttribute hv, htext]
    exact Text.lowercase_infix hagree
  constructor
  · intro hword hname t ht d hits hsearch h hh hi
    have hexcluded : Text.lowercase part ∈ (Query.parse t).exclusions := by
      obtain ⟨ch, u, rfl⟩ := List.exists_cons_of_ne_nil hword.1
      exact Query.mem_exclusions_parse_iff.2 ⟨_, ht, rfl⟩
    obtain ⟨-, e, he, hmeets⟩ := Index.mem_met_iff.1 (position_mem_met hsearch hh)
    rw [hi, hitems, List.getElem?_map, hitem] at he
    obtain rfl := Option.some.inj he
    have hmem : IndexedField.ofAttribute item name ∈ (x.entryOf c item).fields ++ (x.entryOf c item).filterFields := by
      have hindexed : name ∈ x.fields.map (·.name) ∨ name ∈ x.filterFields := hname.elim (.inl ∘ hscored name) (hfiltered name)
      rcases hindexed with hindexed | hindexed
      · exact List.mem_append_left _ (Index.ofAttribute_mem_fields hindexed c item)
      · exact List.mem_append_right _ (Index.ofAttribute_mem_filterFields hindexed c item)
    exact hmeets.exclusions _ hexcluded _ hmem hinfix
  · intro htrim hname t ht
    refine ⟨?_, Index.anyFieldMentions_iff.2 ⟨_, Index.ofAttribute_mem_fields (hscored name hname) c item, hinfix⟩⟩
    intro hne
    exact Query.mem_phrases_parse_iff.2 ⟨by simpa using hne, part, ht, by rw [htrim]⟩

/-- A title of which the first word ends in a sigma, which is final in the title as it is by itself. -/
def street : Text := "ΟΔΟΣ ΣΟΛΩΝΟΣ".toList

theorem verbatim_found_street :
    ∃ x, Index.build [titled street] titles = .ok x ∧
      (∀ hits : List (Hit Json Rat), search [titled street] x (.parse "-ΟΔΟΣ".toList) titles = .ok hits →
        ∀ h ∈ hits, h.position ≠ 0) ∧
      (x.entryOf titles (titled street)).anyFieldMentions (Text.lowercase "ΟΔΟΣ".toList) = true := by
  obtain ⟨x, hx, hall⟩ := verbatim_found [titled street] titles (by decide +kernel)
  have htitle : attribute? (titled street) "title".toList = some (.text street) := by
    simp [titled, attribute?, Json.member?, FieldValue.ofJson]
  have hword : Text.IsWord "ΟΔΟΣ".toList :=
    Text.isWord_of_mem_words (show "ΟΔΟΣ".toList ∈ Text.words street by decide +kernel)
  have hname : "title".toList ∈ titles.fields.map (·.name) := by decide +kernel
  obtain ⟨hexclusion, hphrase⟩ :=
    hall 0 _ "title".toList _ [] "ΟΔΟΣ".toList " ΣΟΛΩΝΟΣ".toList rfl htitle rfl fun _ => by decide +kernel
  refine ⟨x, hx, hexclusion hword (.inl hname) "-ΟΔΟΣ".toList (by decide +kernel) titles, ?_⟩
  exact (hphrase (by decide +kernel) hname "\"ΟΔΟΣ\"".toList (by decide +kernel)).2

/-- **A sigma that ends the sought text and not the word is missed.**  The title contains the text that the first query
excludes and the second one quotes, but the first finds it, and the second does not. -/
theorem final_sigma_missed :
    "ΑΣΑ".toList = [] ++ "ΑΣ".toList ++ "Α".toList ∧
      "-ΑΣ".toList ∈ Text.words (Query.unquote "-ΑΣ".toList).1 ∧
      foundAmong titles [titled "ΑΣΑ".toList] "-ΑΣ".toList = some [0] ∧
      "ΑΣ".toList ∈ (Query.unquote "\"ΑΣ\"".toList).2 ∧
      foundAmong titles [titled "ΑΣΑ".toList] "\"ΑΣ\"".toList = some [] := by
  decide +kernel

end ContentSearch
