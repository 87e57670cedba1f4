import ContentSearch.Proofs.Collections
import ContentSearch.Proofs.Config.Validation

/-!
# The attributes that a configuration names

Scored fields and attributes that are only filtered on may be named again and again; an index keeps the first declaration of
each name.

* `names_of_distinctFields`, `Index.newNames_eq`: the names that are kept stand in the order of their first declarations;
* `filtered?`: the attribute that the name in a filter stands for, by the declarations alone;
* `Index.NamedBy.map_nameAt?_resolve?`: an index resolves the name to the place of this attribute.
-/

namespace ContentSearch

variable {α : Type}

/-! ## the names that are kept -/

section Kept

variable [Scalar α]

namespace Config

theorem names_of_distinctAfter {seen l fs : List (ScoredField α)} (h : distinctAfter seen l = .ok fs) :
    fs.map (·.name) = seen.map (·.name) ++ ((l.map (·.name)).filter fun n => n ∉ seen.map (·.name)).eraseDups := by
  induction l generalizing seen with
  | nil =>
    obtain rfl : seen = fs := Except.ok.inj h
    simp
  | cons f rest ih =>
    obtain ⟨-, ⟨g, hg, hname, -, hrest⟩ | ⟨hfresh, hrest⟩⟩ := valid_of_distinctAfter_cons h
    · have hmem : f.name ∈ seen.map (·.name) := List.mem_map.2 ⟨g, hg, hname⟩
      rw [ih hrest, List.map_cons, List.filter_cons_of_neg (by simpa using hmem)]
    · have hmem : f.name ∉ seen.map (·.name) := by
        intro hmem
        obtain ⟨g, hg, hname⟩ := List.mem_map.1 hmem
        exact hfresh g hg hname
      have hothers : ((rest.map (·.name)).filter fun n => n ∉ (seen ++ [f]).map (·.name)) =
          ((rest.map (·.name)).filter fun n => n ∉ seen.map (·.name)).filter fun n => !n == f.name := by
        rw [List.filter_filter]
        refine List.filter_congr fun n _ => ?_
        rw [Bool.eq_iff_iff]
        simp only [List.map_append, List.map_cons, List.map_nil, List.mem_append, List.mem_singleton, not_or,
          decide_eq_true_eq, Bool.and_eq_true, Bool.not_eq_true', beq_eq_false_iff_ne, ne_eq]
        exact and_comm
      rw [ih hrest, hothers, List.map_cons, List.filter_cons_of_pos (by simpa using hmem), List.eraseDups_cons,
        List.map_append, List.append_assoc]
      rfl

theorem names_of_distinctFields {c : Config α} {fs : List (ScoredField α)} (h : c.distinctFields = .ok fs) :
    fs.map (·.name) = (c.fields.map (·.name)).eraseDups := by
  rw [names_of_distinctAfter (distinctAfter_of_distinctFields h).2]
  simp

end Config

/-- The names that a list adds to others are kept once, where it first has them. -/
theorem Index.newNames_eq (taken l : List Text) : newNames taken l = (l.filter fun n => n ∉ taken).eraseDups := by
  induction l generalizing taken with
  | nil => rfl
  | cons n l ih =>
    unfold newNames
    by_cases hn : n ∈ taken
    · rw [if_pos (by simpa using hn), ih, List.filter_cons_of_neg (by simpa using hn)]
    · rw [if_neg (by simpa using hn), ih, List.filter_cons_of_pos (by simpa using hn), List.eraseDups_cons,
        List.filter_filter]
      congr 2
      refine List.filter_congr fun m _ => ?_
      rw [Bool.eq_iff_iff]
      simp

theorem Index.mem_newNames {taken l : List Text} {name : Text} (h : name ∈ l) : name ∈ taken ∨ name ∈ newNames taken l := by
  by_cases htaken : name ∈ taken
  · exact .inl htaken
  · rw [newNames_eq, List.mem_eraseDups, List.mem_filter]
    exact .inr ⟨h, decide_eq_true htaken⟩

end Kept

/-! ## the attribute that a name stands for -/

namespace Config

/-- The attributes that are declared, scored ones first. -/
def attributes (c : Config α) : List Text := c.fields.map (·.name) ++ c.filterFields

/-- The first attribute with a name, up to the case of ASCII letters. -/
def named? (c : Config α) (name : Text) : Option Text := c.attributes.find? fun a => Index.sameName a name

/-- The attribute that the name in a filter stands for: one of this name, or else one of the name with an `s`. -/
def filtered? (c : Config α) (name : Text) : Option Text := (c.named? name).or (c.named? (name ++ ['s']))

end Config

namespace Index

/-- The name of the attribute at a place. -/
def nameAt? (x : Index α) : AttributeRef → Option Text
  | .scored n => (x.fields[n]?).map (·.name)
  | .filter n => x.filterFields[n]?

variable [Scalar α]

/-- The names of an index are those that a configuration declares, each at its first place. -/
structure NamedBy (x : Index α) (c : Config α) : Prop where
  fields : c.distinctFields = .ok x.fields
  filterFields : x.filterFields = newNames (x.fields.map (·.name)) c.filterFields

namespace NamedBy

variable {x : Index α} {c : Config α}

theorem names (h : x.NamedBy c) : x.fields.map (·.name) = (c.fields.map (·.name)).eraseDups :=
  Config.names_of_distinctFields h.fields

theorem nodup (h : x.NamedBy c) : (x.fields.map (·.name)).Nodup := (Config.valid_of_distinctFields h.fields).2.2

theorem mem_names_iff (h : x.NamedBy c) {name : Text} :
    name ∈ x.fields.map (·.name) ++ x.filterFields ↔ name ∈ c.attributes := by
  rw [h.filterFields, newNames_eq, h.names, Config.attributes, List.mem_append, List.mem_append, List.mem_eraseDups,
    List.mem_eraseDups, List.mem_filter, decide_eq_true_eq, List.mem_eraseDups]
  tauto

/-- An index locates a name at the place of the attribute that has it. -/
theorem map_nameAt?_locate? (h : x.NamedBy c) (name : Text) : (x.locate? name).map x.nameAt? = (c.named? name).map some := by
  have hscored : ((x.fields.findIdx? fun f => sameName f.name name).map AttributeRef.scored).map x.nameAt? =
      ((x.fields.map (·.name)).find? (sameName · name)).map some := by
    have hplaces := congrArg (Option.map (Option.map ScoredField.name))
      (map_findIdx?_getElem? (fun f : ScoredField α => sameName f.name name) x.fields)
    rw [Option.map_map] at hplaces ⊢
    rw [List.find?_map, Option.map_map]
    rw [Option.map_map] at hplaces
    exact hplaces
  have hfiltered : ((x.filterFields.findIdx? fun f => sameName f name).map AttributeRef.filter).map x.nameAt? =
      (x.filterFields.find? (sameName · name)).map some := by
    rw [Option.map_map]
    exact map_findIdx?_getElem? (fun f => sameName f name) x.filterFields
  rw [locate?, Option.map_or, hscored, hfiltered, ← Option.map_or, Config.named?, Config.attributes, List.find?_append,
    h.filterFields, newNames_eq, find?_eraseDups, h.names, find?_eraseDups]
  -- a name that is scored too is not looked for among the others
  cases hfind : (c.fields.map (·.name)).find? (sameName · name) with
  | some a => rfl
  | none =>
    rw [Option.none_or, Option.none_or, find?_filter_of_forall]
    intro a _ ha
    rw [decide_eq_true_eq, List.mem_eraseDups]
    intro hmem
    exact List.find?_eq_none.1 hfind a hmem ha

/-- **An index resolves the name in a filter to the place of the attribute that it stands for.** -/
theorem map_nameAt?_resolve? (h : x.NamedBy c) (name : Text) :
    (x.resolve? name).map x.nameAt? = (c.filtered? name).map some := by
  rw [resolve?, Option.map_or, h.map_nameAt?_locate?, h.map_nameAt?_locate?, ← Option.map_or]
  rfl

theorem filtered?_eq_some_iff (h : x.NamedBy c) {name a : Text} :
    c.filtered? name = some a ↔ ∃ r, x.resolve? name = some r ∧ x.nameAt? r = some a := by
  have hmap := h.map_nameAt?_resolve? name
  cases hresolve : x.resolve? name with
  | none =>
    rw [hresolve] at hmap
    simp [Option.map_eq_none_iff.1 hmap.symm]
  | some r =>
    rw [hresolve, Option.map_some] at hmap
    obtain ⟨b, hb, hr⟩ := Option.map_eq_some_iff.1 hmap.symm
    simp [hb, ← hr]

end NamedBy

end Index
end ContentSearch
