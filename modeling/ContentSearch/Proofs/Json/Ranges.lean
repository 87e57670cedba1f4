import ContentSearch.Json.Decode
import ContentSearch.Proofs.Collections
import ContentSearch.Proofs.Json.Numbers

/-!
# The numbers of a document

`inRange_of_read?`: the integers of a document that was read fit in 64 bits, and so does what is decoded from them
(`bounds_of_signed?`, `lt_of_natural?`).
-/

namespace ContentSearch.JsonTree

mutual

/-- Whether all numbers of a document are in range. -/
def InRange : JsonTree → Prop
  | .number (some x) => x.InRange
  | .array items => ItemsInRange items
  | .object members => MembersInRange members
  | _ => True

def ItemsInRange : List JsonTree → Prop
  | [] => True
  | t :: r => t.InRange ∧ ItemsInRange r

def MembersInRange : List (Option Text × JsonTree) → Prop
  | [] => True
  | (_, t) :: r => t.InRange ∧ MembersInRange r

end

theorem itemsInRange_iff {items : List JsonTree} : ItemsInRange items ↔ ∀ t ∈ items, t.InRange := by
  induction items with
  | nil => simp [ItemsInRange]
  | cons t r ih => rw [ItemsInRange, ih, List.forall_mem_cons]

theorem membersInRange_iff {members : List (Option Text × JsonTree)} :
    MembersInRange members ↔ ∀ m ∈ members, m.2.InRange := by
  induction members with
  | nil => simp [MembersInRange]
  | cons m r ih => rw [MembersInRange, ih, List.forall_mem_cons]

/-! ## reading -/

section Fuel

variable {fuel : Nat}

theorem inRange_readValue?_succ (hitems : ∀ t items u, readItems? fuel t = some (items, u) → ItemsInRange items)
    (hmembers : ∀ t members u, readMembers? fuel t = some (members, u) → MembersInRange members) (t : Text)
    (v : JsonTree) (u : Text) (h : readValue? (fuel + 1) t = some (v, u)) : v.InRange := by
  rw [readValue?] at h
  split at h
  · obtain ⟨rfl, -⟩ := Prod.mk.inj (Option.some.inj h)
    exact trivial
  · obtain ⟨rfl, -⟩ := Prod.mk.inj (Option.some.inj h)
    exact trivial
  · obtain ⟨rfl, -⟩ := Prod.mk.inj (Option.some.inj h)
    exact trivial
  · obtain ⟨x, -, hx⟩ := Option.map_eq_some_iff.1 h
    obtain ⟨rfl, -⟩ := Prod.mk.inj hx
    exact trivial
  · split at h
    · obtain ⟨rfl, -⟩ := Prod.mk.inj (Option.some.inj h)
      exact trivial
    · obtain ⟨⟨items, w⟩, hread, hx⟩ := Option.map_eq_some_iff.1 h
      obtain ⟨rfl, -⟩ := Prod.mk.inj hx
      exact hitems _ items w hread
  · split at h
    · obtain ⟨rfl, -⟩ := Prod.mk.inj (Option.some.inj h)
      exact trivial
    · obtain ⟨⟨members, w⟩, hread, hx⟩ := Option.map_eq_some_iff.1 h
      obtain ⟨rfl, -⟩ := Prod.mk.inj hx
      exact hmembers _ members w hread
  · obtain ⟨⟨l, w⟩, -, hx⟩ := Option.map_eq_some_iff.1 h
    obtain ⟨rfl, -⟩ := Prod.mk.inj hx
    cases hl : l.value? with
    | none => exact trivial
    | some x => exact JsonNumber.inRange_of_value? hl

theorem inRange_readItems?_succ (hvalue : ∀ t v u, readValue? fuel t = some (v, u) → v.InRange)
    (hitems : ∀ t items u, readItems? fuel t = some (items, u) → ItemsInRange items) (t : Text)
    (items : List JsonTree) (u : Text) (h : readItems? (fuel + 1) t = some (items, u)) : ItemsInRange items := by
  rw [readItems?] at h
  obtain ⟨⟨item, w⟩, hread, h⟩ := Option.bind_eq_some_iff.1 h
  have hitem := hvalue _ item w hread
  dsimp only at h
  split at h
  · obtain ⟨rfl, -⟩ := Prod.mk.inj (Option.some.inj h)
    exact ⟨hitem, trivial⟩
  · obtain ⟨⟨rest, w'⟩, hrest, h⟩ := Option.bind_eq_some_iff.1 h
    obtain ⟨rfl, -⟩ := Prod.mk.inj (Option.some.inj h)
    exact ⟨hitem, hitems _ rest w' hrest⟩
  · simp at h

theorem inRange_readMembers?_succ (hvalue : ∀ t v u, readValue? fuel t = some (v, u) → v.InRange)
    (hmembers : ∀ t members u, readMembers? fuel t = some (members, u) → MembersInRange members) (t : Text)
    (members : List (Option Text × JsonTree)) (u : Text) (h : readMembers? (fuel + 1) t = some (members, u)) :
    MembersInRange members := by
  rw [readMembers?] at h
  split at h
  · obtain ⟨⟨key, w⟩, -, h⟩ := Option.bind_eq_some_iff.1 h
    dsimp only at h
    split at h
    · obtain ⟨⟨value, w'⟩, hread, h⟩ := Option.bind_eq_some_iff.1 h
      have hmember := hvalue _ value w' hread
      dsimp only at h
      split at h
      · obtain ⟨rfl, -⟩ := Prod.mk.inj (Option.some.inj h)
        exact ⟨hmember, trivial⟩
      · obtain ⟨⟨rest, w''⟩, hrest, h⟩ := Option.bind_eq_some_iff.1 h
        obtain ⟨rfl, -⟩ := Prod.mk.inj (Option.some.inj h)
        exact ⟨hmember, hmembers _ rest w'' hrest⟩
      · simp at h
    · simp at h
  · simp at h

end Fuel

/-- What is read is in range, by induction on the fuel of the three readers. -/
theorem inRange_of_fuel (fuel : Nat) :
    (∀ t v u, readValue? fuel t = some (v, u) → v.InRange) ∧
    (∀ t items u, readItems? fuel t = some (items, u) → ItemsInRange items) ∧
    (∀ t members u, readMembers? fuel t = some (members, u) → MembersInRange members) := by
  induction fuel with
  | zero => exact ⟨by simp [readValue?], by simp [readItems?], by simp [readMembers?]⟩
  | succ fuel ih =>
    obtain ⟨hvalue, hitems, hmembers⟩ := ih
    exact ⟨inRange_readValue?_succ hitems hmembers, inRange_readItems?_succ hvalue hitems,
      inRange_readMembers?_succ hvalue hmembers⟩

theorem inRange_of_read? {t : Text} {v : JsonTree} (h : read? t = some v) : v.InRange := by
  obtain ⟨⟨tree, rest⟩, hread, h⟩ := Option.bind_eq_some_iff.1 h
  dsimp only at h
  split at h
  · obtain rfl := Option.some.inj h
    exact (inRange_of_fuel _).1 t tree rest hread
  · simp at h

/-! ## decoding -/

theorem inRange_of_integer? {t : JsonTree} (ht : t.InRange) {n : Int} (h : t.integer? = some n) :
    (JsonNumber.integer n).InRange := by
  unfold integer? at h
  split at h
  · obtain rfl := Option.some.inj h
    exact ht
  · simp at h

theorem bounds_of_signed? {t : JsonTree} (ht : t.InRange) {n : Int} (h : t.signed? = some n) :
    -(signedBound : Int) ≤ n ∧ n < signedBound := by
  obtain ⟨m, hm, h⟩ := Option.bind_eq_some_iff.1 h
  split at h
  · next hlt =>
    obtain rfl := Option.some.inj h
    exact ⟨(inRange_of_integer? ht hm).1, hlt⟩
  · simp at h

theorem lt_of_natural? {t : JsonTree} (ht : t.InRange) {n : Nat} (h : t.natural? = some n) : n < wordSize := by
  obtain ⟨m, hm, h⟩ := Option.bind_eq_some_iff.1 h
  have hlt : m < wordSize := (inRange_of_integer? ht hm).2
  split at h
  · obtain rfl := Option.some.inj h
    omega
  · simp at h

/-- The fields of a record are parts of its document. -/
theorem inRange_of_fields? {names : List Text} {t : JsonTree} (ht : t.InRange) {l : List (Option JsonTree)}
    (h : t.fields? names = some l) : ∀ v, some v ∈ l → v.InRange := by
  intro v hv
  unfold fields? at h
  split at h
  · next items =>
    split at h
    · obtain rfl := Option.some.inj h
      have hitem : v ∈ items := by simpa using hv
      exact itemsInRange_iff.1 ht v hitem
    · simp at h
  · next members =>
    obtain ⟨members', hmembers, h⟩ := Option.bind_eq_some_iff.1 h
    obtain ⟨name, -, hname⟩ := exists_of_mem_right (mapM_eq_some_iff.1 h) hv
    split at hname
    · simp at hname
    · next m hfilter =>
      obtain rfl := Option.some.inj (Option.some.inj hname)
      have hm : m ∈ members' := List.mem_of_mem_filter (by rw [hfilter]; exact List.mem_singleton_self m)
      obtain ⟨⟨k, w⟩, hkw, hmap⟩ := exists_of_mem_right (mapM_eq_some_iff.1 hmembers) hm
      obtain ⟨k', -, hk⟩ := Option.bind_eq_some_iff.1 hmap
      rw [← Option.some.inj hk]
      exact membersInRange_iff.1 ht (k, w) hkw
    · simp at hname
  · simp at h

end ContentSearch.JsonTree
