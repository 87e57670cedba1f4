import ContentSearch.Text.Basic

/-!
Dictionaries: finite maps from texts to values, kept as a list of entries whose keys ascend, so
that two dictionaries with the same content are equal.

* `find?_alter_self`, `find?_alter_of_ne`: what changing one key does to all look-ups;
* `find?_erase_self`, `find?_erase_of_ne`: the same for erasing.
-/

namespace ContentSearch

/-- A finite map from texts to values. -/
structure Dictionary (α : Type) where
  entries : List (Text × α)
  sorted : entries.Pairwise fun a b => a.1 < b.1

namespace Dictionary

variable {α : Type}

@[ext] theorem ext {d e : Dictionary α} (h : d.entries = e.entries) : d = e := by
  cases d; cases e; simp_all

instance [DecidableEq α] : DecidableEq (Dictionary α) := fun d e =>
  if h : d.entries = e.entries then isTrue (ext h) else isFalse fun hd => h (hd ▸ rfl)

instance [Repr α] : Repr (Dictionary α) := ⟨fun d n => reprPrec d.entries n⟩

instance [BEq α] : BEq (Dictionary α) := ⟨fun d e => d.entries == e.entries⟩

def empty : Dictionary α := ⟨[], .nil⟩

instance : EmptyCollection (Dictionary α) := ⟨empty⟩

instance : Inhabited (Dictionary α) := ⟨empty⟩

/-- The entries in ascending order of their keys. -/
def toList (d : Dictionary α) : List (Text × α) := d.entries

def size (d : Dictionary α) : Nat := d.entries.length

def isEmpty (d : Dictionary α) : Bool := d.entries.isEmpty

/-! ## order of keys -/

theorem lt_trans {a b c : Text} (h₁ : a < b) (h₂ : b < c) : a < c := List.lt_trans h₁ h₂

theorem lt_of_not_lt_of_ne {a b : Text} (h : ¬ a < b) (hne : a ≠ b) : b < a := by
  rcases List.le_total a b with h' | h'
  · exact absurd (List.le_antisymm h' (List.not_lt.1 h)) hne
  · rcases Decidable.em (b < a) with hlt | hlt
    · exact hlt
    · exact absurd (List.le_antisymm (List.not_lt.1 hlt) h') hne

theorem lt_irrefl (a : Text) : ¬ a < a := List.lt_irrefl a

/-! ## change of one entry -/

/-- The entries with the value at `key` replaced by `f` of the value before, if any. -/
def alterEntries (key : Text) (f : Option α → α) : List (Text × α) → List (Text × α)
  | [] => [(key, f none)]
  | (k, v) :: r =>
    if key < k then (key, f none) :: (k, v) :: r
    else if key = k then (k, f (some v)) :: r
    else (k, v) :: alterEntries key f r

theorem mem_alterEntries {key : Text} {f : Option α → α} {l : List (Text × α)} {e : Text × α}
    (h : e ∈ alterEntries key f l) : e.1 = key ∨ ∃ e' ∈ l, e'.1 = e.1 := by
  induction l with
  | nil => simp [alterEntries] at h; simp [h]
  | cons p r ih =>
    obtain ⟨k, v⟩ := p
    simp only [alterEntries] at h
    split at h
    · rcases List.mem_cons.1 h with rfl | h
      · simp
      · exact .inr ⟨e, h, rfl⟩
    · split at h
      · rcases List.mem_cons.1 h with rfl | h
        · exact .inr ⟨(k, v), by simp, rfl⟩
        · exact .inr ⟨e, by simp [h], rfl⟩
      · rcases List.mem_cons.1 h with rfl | h
        · exact .inr ⟨(k, v), by simp, rfl⟩
        · rcases ih h with h | ⟨e', he', hk⟩
          · exact .inl h
          · exact .inr ⟨e', by simp [he'], hk⟩

theorem sorted_alterEntries (key : Text) (f : Option α → α) {l : List (Text × α)}
    (h : l.Pairwise fun a b => a.1 < b.1) :
    (alterEntries key f l).Pairwise fun a b => a.1 < b.1 := by
  induction l with
  | nil => simp [alterEntries]
  | cons p r ih =>
    obtain ⟨k, v⟩ := p
    obtain ⟨hk, hr⟩ := List.pairwise_cons.1 h
    simp only [alterEntries]
    split
    · next hlt =>
      refine List.pairwise_cons.2 ⟨fun e he => ?_, h⟩
      rcases List.mem_cons.1 he with rfl | he
      · exact hlt
      · exact lt_trans hlt (hk e he)
    · next hge =>
      split
      · exact List.pairwise_cons.2 ⟨fun e he => hk e he, hr⟩
      · next hne =>
        refine List.pairwise_cons.2 ⟨fun e he => ?_, ih hr⟩
        rcases mem_alterEntries he with h' | ⟨e', he', h'⟩
        · rw [h']; exact lt_of_not_lt_of_ne hge hne
        · rw [← h']; exact hk e' he'

/-- The dictionary with the value at `key` replaced by `f` of the value before, if any. -/
def alter (d : Dictionary α) (key : Text) (f : Option α → α) : Dictionary α :=
  ⟨alterEntries key f d.entries, sorted_alterEntries key f d.sorted⟩

def insert (d : Dictionary α) (key : Text) (value : α) : Dictionary α :=
  d.alter key fun _ => value

def erase (d : Dictionary α) (key : Text) : Dictionary α :=
  ⟨d.entries.filter fun e => e.1 ≠ key, d.sorted.filter _⟩

def find? (d : Dictionary α) (key : Text) : Option α :=
  (d.entries.find? fun e => e.1 = key).map (·.2)

def contains (d : Dictionary α) (key : Text) : Bool := (d.find? key).isSome

/-- The dictionary of a list of entries; of those with one key the last counts. -/
def ofList (l : List (Text × α)) : Dictionary α := l.foldl (fun d e => d.insert e.1 e.2) empty

/-! ## look-ups -/

theorem find?_alter_of_ne (d : Dictionary α) {key k : Text} (f : Option α → α) (h : k ≠ key) :
    (d.alter key f).find? k = d.find? k := by
  obtain ⟨l, hl⟩ := d
  simp only [find?, alter]
  congr 1
  induction l with
  | nil => simp [alterEntries, Ne.symm h]
  | cons p r ih =>
    obtain ⟨a, v⟩ := p
    simp only [alterEntries]
    split
    · simp [List.find?_cons, Ne.symm h]
    · split
      · next he => subst he; simp [Ne.symm h]
      · simp only [List.find?_cons, ih (List.pairwise_cons.1 hl).2]

theorem find?_eq_none_of_lt {l : List (Text × α)} {key : Text} (h : ∀ e ∈ l, key < e.1) :
    (l.find? fun e => e.1 = key) = none := by
  simp only [List.find?_eq_none, decide_eq_true_eq]
  intro e he heq
  exact lt_irrefl key (heq ▸ h e he)

theorem find?_alter_self (d : Dictionary α) (key : Text) (f : Option α → α) :
    (d.alter key f).find? key = some (f (d.find? key)) := by
  obtain ⟨l, hl⟩ := d
  simp only [find?, alter]
  induction l with
  | nil => simp [alterEntries]
  | cons p r ih =>
    obtain ⟨a, v⟩ := p
    obtain ⟨ha, hr⟩ := List.pairwise_cons.1 hl
    simp only [alterEntries]
    split
    · next hlt =>
      have : ((a, v) :: r).find? (fun e => e.1 = key) = none :=
        find?_eq_none_of_lt fun e he => by
          rcases List.mem_cons.1 he with rfl | he
          · exact hlt
          · exact lt_trans hlt (ha e he)
      simp [this]
    · split
      · next h => simp [h]
      · next h => simp [Ne.symm h, ih hr]

theorem find?_insert_self (d : Dictionary α) (key : Text) (v : α) :
    (d.insert key v).find? key = some v := find?_alter_self d key _

theorem find?_insert_of_ne (d : Dictionary α) {key k : Text} (v : α) (h : k ≠ key) :
    (d.insert key v).find? k = d.find? k := find?_alter_of_ne d _ h

theorem find?_erase_self (d : Dictionary α) (key : Text) : (d.erase key).find? key = none := by
  simp [find?, erase, List.find?_filter]

theorem find?_erase_of_ne (d : Dictionary α) {key k : Text} (h : k ≠ key) :
    (d.erase key).find? k = d.find? k := by
  simp only [find?, erase, List.find?_filter]
  congr 2
  funext e
  by_cases he : e.1 = k <;> simp [he, h]

end Dictionary
end ContentSearch
