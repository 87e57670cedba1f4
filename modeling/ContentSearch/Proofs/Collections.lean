import Mathlib.Data.List.Forall2

/-!
# Operations on all items of a list

* `exists_mapM_eq_ok`, `mapM_eq_ok_map`: an operation that has a result for every item has the list of the results;
* `mapM_eq_some_iff`, `exists_of_mapM_eq_none`: the same where there is a result or none;
* `pairwise_mergeSort_of_pairwise`: sorting keeps the order of the items that rank alike;
* `filter_mergeSort`: and so it does not matter whether items are left out before or after;
* `SublistForall₂`: a list whose items have counterparts in another one, in their order;
* `find?_eraseDups`, `nodup_eraseDups`: a list without its repetitions.
-/

namespace ContentSearch

/-! ## results of the items -/

theorem exists_mapM_eq_ok {α β ε : Type} {f : α → Except ε β} {P : α → β → Prop} {l : List α}
    (h : ∀ a ∈ l, ∃ b, f a = .ok b ∧ P a b) : ∃ m, l.mapM f = .ok m ∧ List.Forall₂ P l m := by
  induction l with
  | nil => exact ⟨[], rfl, .nil⟩
  | cons a l ih =>
    obtain ⟨b, hb, hab⟩ := h a (by simp)
    obtain ⟨m, hm, hlm⟩ := ih fun c hc => h c (List.mem_cons_of_mem _ hc)
    refine ⟨b :: m, ?_, .cons hab hlm⟩
    rw [List.mapM_cons, hb, hm]
    rfl

theorem map_eq_of_eq_ok {ε α β : Type} {x : Except ε (List α)} {l : List α} {f : α → β} {m : List β} (h : x = .ok l)
    (hm : x.toOption.map (List.map f) = some m) : l.map f = m := by
  rw [h] at hm
  exact Option.some.inj hm

theorem exists_of_bind_eq_ok {α β ε : Type} {r : Except ε α} {f : α → Except ε β} {b : β} (h : r >>= f = .ok b) :
    ∃ a, r = .ok a ∧ f a = .ok b := by
  cases r with
  | error e => exact absurd h (by simp [bind, Except.bind])
  | ok a => exact ⟨a, rfl, h⟩

theorem forall₂_of_mapM_eq_ok {α β ε : Type} {f : α → Except ε β} {l : List α} {m : List β} (h : l.mapM f = .ok m) :
    List.Forall₂ (fun a b => f a = .ok b) l m := by
  induction l generalizing m with
  | nil =>
    obtain rfl : [] = m := Except.ok.inj h
    exact .nil
  | cons a l ih =>
    rw [List.mapM_cons] at h
    obtain ⟨b, hb, h⟩ := exists_of_bind_eq_ok h
    obtain ⟨m', hm', h⟩ := exists_of_bind_eq_ok h
    obtain rfl : b :: m' = m := Except.ok.inj h
    exact .cons hb (ih hm')

theorem mapM_eq_ok_map {α β ε : Type} {f : α → Except ε β} {g : α → β} {l : List α} (h : ∀ a ∈ l, f a = .ok (g a)) :
    l.mapM f = .ok (l.map g) := by
  induction l with
  | nil => rfl
  | cons a l ih =>
    rw [List.mapM_cons, h a List.mem_cons_self, ih fun b hb => h b (List.mem_cons_of_mem _ hb)]
    rfl

theorem exists_of_mem_right {α β : Type} {P : α → β → Prop} {l : List α} {m : List β} (h : List.Forall₂ P l m) {b : β}
    (hb : b ∈ m) : ∃ a ∈ l, P a b := by
  induction h with
  | nil => simp at hb
  | cons hab _ ih =>
    rcases List.mem_cons.1 hb with rfl | hb
    · exact ⟨_, List.mem_cons_self, hab⟩
    · obtain ⟨a, ha, hP⟩ := ih hb
      exact ⟨a, List.mem_cons_of_mem _ ha, hP⟩

theorem exists_of_mem_left {α β : Type} {P : α → β → Prop} {l : List α} {m : List β} (h : List.Forall₂ P l m) {a : α}
    (ha : a ∈ l) : ∃ b ∈ m, P a b :=
  exists_of_mem_right h.flip ha

theorem pairwise_of_forall₂ {α β : Type} {R : α → β → Prop} {P : α → α → Prop} {Q : β → β → Prop} {l : List α} {m : List β}
    (h : List.Forall₂ R l m) (hl : l.Pairwise P) (hstep : ∀ {a b a' b'}, R a b → R a' b' → P a a' → Q b b') : m.Pairwise Q := by
  induction h with
  | nil => exact .nil
  | cons hab htail ih =>
    obtain ⟨hfirst, hrest⟩ := List.pairwise_cons.1 hl
    refine .cons (fun b' hb' => ?_) (ih hrest)
    obtain ⟨a', ha', hab'⟩ := exists_of_mem_right htail hb'
    exact hstep hab hab' (hfirst a' ha')

theorem mapM_eq_some_iff {α β : Type} {f : α → Option β} {l : List α} {m : List β} :
    l.mapM f = some m ↔ List.Forall₂ (fun a b => f a = some b) l m := by
  induction l generalizing m with
  | nil => simp [List.mapM_nil, eq_comm]
  | cons a l ih =>
    rw [List.mapM_cons, List.forall₂_cons_left_iff]
    simp only [← ih]
    constructor
    · intro h
      obtain ⟨b, hb, h⟩ := Option.bind_eq_some_iff.1 h
      obtain ⟨m', hm', h⟩ := Option.bind_eq_some_iff.1 h
      exact ⟨b, m', hb, hm', (Option.some.inj h).symm⟩
    · rintro ⟨b, m', hb, hm', rfl⟩
      simp [hb, hm']

theorem filterMap_of_forall₂ {α β : Type} {f : α → Option β} {l : List α} {m : List β}
    (h : List.Forall₂ (fun a b => f a = some b) l m) : l.filterMap f = m := by
  induction h with
  | nil => rfl
  | cons hab _ ih => rw [List.filterMap_cons_some hab, ih]

theorem exists_of_mapM_eq_none {α β : Type} {f : α → Option β} {l : List α} (h : l.mapM f = none) :
    ∃ a ∈ l, f a = none := by
  by_contra hne
  have hsome : ∀ a ∈ l, ∃ b, f a = some b := by
    intro a ha
    exact Option.ne_none_iff_exists'.1 fun hnone => hne ⟨a, ha, hnone⟩
  have hm : ∃ m, List.Forall₂ (fun a b => f a = some b) l m := by
    clear h hne
    induction l with
    | nil => exact ⟨[], .nil⟩
    | cons a l ih =>
      obtain ⟨b, hb⟩ := hsome a (by simp)
      obtain ⟨m, hm⟩ := ih fun c hc => hsome c (List.mem_cons_of_mem _ hc)
      exact ⟨b :: m, .cons hb hm⟩
  obtain ⟨m, hm⟩ := hm
  rw [mapM_eq_some_iff.2 hm] at h
  exact Option.some_ne_none _ h

/-! ## counterparts -/

section Counterparts

variable {α β γ δ : Type} {R : α → β → Prop} {S : γ → δ → Prop}

theorem sublistForall₂_append {l₁ l₂ : List α} {m₁ m₂ : List β} (h₁ : List.SublistForall₂ R l₁ m₁)
    (h₂ : List.SublistForall₂ R l₂ m₂) : List.SublistForall₂ R (l₁ ++ l₂) (m₁ ++ m₂) := by
  obtain ⟨k₁, hk₁, hm₁⟩ := List.sublistForall₂_iff.1 h₁
  obtain ⟨k₂, hk₂, hm₂⟩ := List.sublistForall₂_iff.1 h₂
  exact List.sublistForall₂_iff.2 ⟨k₁ ++ k₂, List.rel_append hk₁ hk₂, hm₁.append hm₂⟩

theorem sublistForall₂_flatMap {f : α → List γ} {g : β → List δ} {l : List α} {m : List β}
    (h : List.Forall₂ (fun a b => List.SublistForall₂ S (f a) (g b)) l m) :
    List.SublistForall₂ S (l.flatMap f) (m.flatMap g) := by
  induction h with
  | nil => exact .nil
  | cons hab _ ih =>
    rw [List.flatMap_cons, List.flatMap_cons]
    exact sublistForall₂_append hab ih

theorem sublistForall₂_filterMap {f : α → Option γ} {g : α → Option δ} {l : List α}
    (h : ∀ a ∈ l, ∀ c, f a = some c → ∃ d, g a = some d ∧ S c d) :
    List.SublistForall₂ S (l.filterMap f) (l.filterMap g) := by
  induction l with
  | nil => exact .nil
  | cons a l ih =>
    obtain ⟨ha, hl⟩ := List.forall_mem_cons.1 h
    have hrest := ih hl
    cases hf : f a with
    | none =>
      rw [List.filterMap_cons_none hf, List.filterMap_cons]
      cases g a with
      | none => exact hrest
      | some d => exact .cons_right hrest
    | some c =>
      obtain ⟨d, hd, hcd⟩ := ha c hf
      rw [List.filterMap_cons_some hf, List.filterMap_cons_some hd]
      exact .cons hcd hrest

theorem exists_of_sublistForall₂ {l : List α} {m : List β} (h : List.SublistForall₂ R l m) {a : α} (ha : a ∈ l) :
    ∃ b ∈ m, R a b := by
  obtain ⟨k, hk, hsub⟩ := List.sublistForall₂_iff.1 h
  obtain ⟨b, hb, hab⟩ := exists_of_mem_left hk ha
  exact ⟨b, hsub.subset hb, hab⟩

theorem forall₂_zip {l : List α} {m : List β} (h : List.Forall₂ R l m) (k : List γ) :
    List.Forall₂ (fun a b => R a.1 b.1 ∧ a.2 = b.2) (l.zip k) (m.zip k) := by
  induction h generalizing k with
  | nil => exact .nil
  | cons hab _ ih =>
    cases k with
    | nil => exact .nil
    | cons c k => exact .cons ⟨hab, rfl⟩ (ih k)

/-- The names of the items that are chosen, where counterparts have one name and are chosen too. -/
theorem sublist_map_filter {l : List α} {m : List β} {p : α → Bool} {q : β → Bool} {f : α → γ} {g : β → γ}
    (h : List.Forall₂ (fun a b => f a = g b ∧ (p a = true → q b = true)) l m) :
    ((l.filter p).map f).Sublist ((m.filter q).map g) := by
  induction h with
  | nil => exact .slnil
  | @cons a b l m hab _ ih =>
    obtain ⟨hname, hchosen⟩ := hab
    rw [List.filter_cons, List.filter_cons]
    split
    · next ha =>
      rw [if_pos (hchosen ha), List.map_cons, List.map_cons, hname]
      exact ih.cons_cons (g b)
    · split
      · exact ih.cons (g b)
      · exact ih

end Counterparts

/-! ## repetitions -/

theorem find?_filter_of_forall {α : Type} {p q : α → Bool} {l : List α} (h : ∀ a ∈ l, q a = true → p a = true) :
    (l.filter p).find? q = l.find? q := by
  induction l with
  | nil => rfl
  | cons a l ih =>
    obtain ⟨ha, hl⟩ := List.forall_mem_cons.1 h
    rw [List.filter_cons]
    split
    · rw [List.find?_cons, List.find?_cons, ih hl]
    · next hp =>
      have hq : q a = false := Bool.eq_false_iff.2 fun hq => hp (ha hq)
      rw [ih hl, List.find?_cons_of_neg (by simp [hq])]

theorem map_findIdx?_getElem? {α : Type} (p : α → Bool) (l : List α) :
    (l.findIdx? p).map (fun n => l[n]?) = (l.find? p).map some := by
  rw [List.find?_eq_bind_findIdx?_getElem?]
  cases hn : l.findIdx? p with
  | none => rfl
  | some n =>
    obtain ⟨hlt, -⟩ := List.findIdx?_eq_some_iff_getElem.1 hn
    simp [List.getElem?_eq_getElem hlt]

theorem nodup_filter_append_iff {α : Type} {l m : List α} {p : α → Bool} (hl : l.Nodup) (hm : m.Nodup)
    (hp : ∀ b ∈ m, p b = true) : ((l ++ m).filter p).Nodup ↔ ∀ a ∈ l, a ∉ m := by
  rw [List.filter_append, List.filter_eq_self.2 hp, List.nodup_append]
  constructor
  · rintro ⟨-, -, hdisjoint⟩ a ha hm
    exact hdisjoint a (List.mem_filter.2 ⟨ha, hp a hm⟩) a hm rfl
  · intro hdisjoint
    refine ⟨hl.filter p, hm, ?_⟩
    rintro a ha _ hb rfl
    exact hdisjoint a (List.mem_of_mem_filter ha) hb

section Repetitions

variable {α : Type} [BEq α] [LawfulBEq α]

theorem nodup_eraseDups_filter (p : α → Bool) (l : List α) : (l.filter p).eraseDups.Nodup := by
  induction l generalizing p with
  | nil => simp
  | cons a l ih =>
    rw [List.filter_cons]
    split
    · rw [List.eraseDups_cons, List.filter_filter]
      refine List.nodup_cons.2 ⟨fun ha => ?_, ih _⟩
      have hself := (List.mem_filter.1 (List.mem_eraseDups.1 ha)).2
      simp at hself
    · exact ih p

theorem nodup_eraseDups (l : List α) : l.eraseDups.Nodup := by
  simpa using nodup_eraseDups_filter (fun _ => true) l

/-- The induction is on the list, for any items of it that are left. -/
theorem find?_eraseDups_filter (p q : α → Bool) (l : List α) :
    (l.filter p).eraseDups.find? q = (l.filter p).find? q := by
  induction l generalizing p with
  | nil => simp
  | cons a l ih =>
    rw [List.filter_cons]
    split
    · rw [List.eraseDups_cons, List.filter_filter, List.find?_cons, List.find?_cons, ih, ← List.filter_filter]
      cases hq : q a with
      | true => rfl
      | false =>
        -- a repetition of the first item is not sought either
        refine find?_filter_of_forall fun b _ hb => ?_
        have hne : b ≠ a := by
          rintro rfl
          rw [hq] at hb
          exact Bool.noConfusion hb
        simpa using hne
    · exact ih p

theorem find?_eraseDups (q : α → Bool) (l : List α) : l.eraseDups.find? q = l.find? q := by
  simpa using find?_eraseDups_filter (fun _ => true) q l

end Repetitions

/-! ## sorting -/

/-- A sorted list ranks an item before another if that does not rank before it, or else if it came first. -/
theorem pairwise_mergeSort_of_pairwise {α : Type} {le : α → α → Bool} {r : α → α → Prop}
    (trans : ∀ a b c, le a b = true → le b c = true → le a c = true) (total : ∀ a b, (le a b || le b a) = true)
    {l : List α} (h : l.Pairwise r) : (l.mergeSort le).Pairwise fun a b => le b a = false ∨ r a b := by
  induction l with
  | nil => simp
  | cons a l ih =>
    obtain ⟨hr, hl⟩ := List.pairwise_cons.1 h
    obtain ⟨l₁, l₂, hcons, hsort, hbefore⟩ := List.mergeSort_cons trans total a l
    have hsorted := ih hl
    rw [hsort] at hsorted
    obtain ⟨h₁, h₂, h₁₂⟩ := List.pairwise_append.1 hsorted
    rw [hcons]
    refine List.pairwise_append.2 ⟨h₁, List.pairwise_cons.2 ⟨?_, h₂⟩, ?_⟩
    · intro b hb
      have hmem : b ∈ l := (List.mergeSort_perm l le).subset (by rw [hsort]; exact List.mem_append_right _ hb)
      exact .inr (hr b hmem)
    · intro b hb c hc
      rcases List.mem_cons.1 hc with rfl | hc
      · exact .inl (by simpa using hbefore b hb)
      · exact h₁₂ b hb c hc

/-- Leaving out items before a list is sorted is leaving them out afterwards. -/
theorem filter_mergeSort_of_pairwise {α : Type} {le : α → α → Bool} {r : α → α → Prop}
    (trans : ∀ a b c, le a b = true → le b c = true → le a c = true) (total : ∀ a b, (le a b || le b a) = true)
    (asymm : ∀ a b, r a b → ¬ r b a) (p : α → Bool) {l : List α} (h : l.Pairwise r) :
    (l.mergeSort le).filter p = (l.filter p).mergeSort le := by
  have hperm : ((l.mergeSort le).filter p).Perm ((l.filter p).mergeSort le) :=
    ((List.mergeSort_perm l le).filter p).trans (List.mergeSort_perm (l.filter p) le).symm
  have hsorted {m : List α} (hm : m.Pairwise r) :
      (m.mergeSort le).Pairwise fun a b => le a b = true ∧ (le b a = false ∨ r a b) :=
    (List.pairwise_mergeSort trans total m).and (pairwise_mergeSort_of_pairwise trans total hm)
  refine List.Perm.eq_of_pairwise ?_ ((hsorted h).filter p) (hsorted (h.filter p)) hperm
  -- two items that rank alike come in their old order, which is only one of the two
  rintro a b - - ⟨hab, hr⟩ ⟨hba, hr'⟩
  have hr : r a b := hr.resolve_left (by rw [hba]; exact Bool.noConfusion)
  have hr' : r b a := hr'.resolve_left (by rw [hab]; exact Bool.noConfusion)
  exact absurd hr' (asymm a b hr)

/-- The same where only the items of the list are ordered. -/
theorem filter_mergeSort {α : Type} {P : α → Prop} {le : α → α → Bool} {r : α → α → Prop}
    (trans : ∀ a b c, P a → P b → P c → le a b = true → le b c = true → le a c = true)
    (total : ∀ a b, P a → P b → (le a b || le b a) = true) (asymm : ∀ a b, r a b → ¬ r b a) (p : α → Bool) {l : List α}
    (hl : ∀ a ∈ l, P a) (h : l.Pairwise r) : (l.mergeSort le).filter p = (l.filter p).mergeSort le := by
  obtain ⟨m, rfl⟩ : ∃ m : List { a // P a }, m.map Subtype.val = l := ⟨l.attachWith P hl, List.attachWith_map_subtype_val ..⟩
  have hmap (k : List { a // P a }) :
      (k.mergeSort fun a b => le a.val b.val).map Subtype.val = (k.map Subtype.val).mergeSort le :=
    List.map_mergeSort fun a _ b _ => rfl
  have hsub : (m.mergeSort fun a b => le a.val b.val).filter (p ∘ Subtype.val) =
      (m.filter (p ∘ Subtype.val)).mergeSort fun a b => le a.val b.val := by
    have h : m.Pairwise fun a b => r a.val b.val := List.pairwise_map.1 h
    refine filter_mergeSort_of_pairwise ?_ ?_ ?_ _ h
    · exact fun a b c => trans a b c a.2 b.2 c.2
    · exact fun a b => total a b a.2 b.2
    · exact fun a b => asymm a b
  calc ((m.map Subtype.val).mergeSort le).filter p
      = ((m.mergeSort fun a b => le a.val b.val).filter (p ∘ Subtype.val)).map Subtype.val := by
        rw [← hmap, List.filter_map]
    _ = ((m.map Subtype.val).filter p).mergeSort le := by rw [hsub, hmap, ← List.filter_map]

end ContentSearch
