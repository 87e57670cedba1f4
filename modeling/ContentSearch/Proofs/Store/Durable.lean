import ContentSearch.Proofs.Store.Lawful

/-!
# Stores that cannot always be read

A durable store keeps what is put into it, but any reading of it may fail.  Such are lawful stores of which the next readings
succeed or fail as they are told to.
-/

namespace ContentSearch

/-- A store that keeps what it is given, although it cannot always be read: `find?` is the text that it holds under a key. -/
class DurableStore (σ : Type) extends Store σ where
  find? : σ → Text → Option Text
  get_eq_or (s : σ) (key : Text) : (get s key).1 = .ok (find? s key) ∨ ∃ e, (get s key).1 = .error e
  find?_get (s : σ) (key k : Text) : find? (get s key).2 k = find? s k
  find?_set_self (s : σ) (key value : Text) : find? (set s key value).2 key = some value
  find?_set_of_ne (s : σ) {key k : Text} (value : Text) (h : k ≠ key) : find? (set s key value).2 k = find? s k

/-- A store of which the next readings fail where the list says so. -/
structure Unsteady (σ : Type) where
  store : σ
  failing : List Bool

namespace Unsteady

variable {σ : Type}

/-- The text under a key, unless this reading fails. -/
def get [Store σ] (s : Unsteady σ) (key : Text) : Except Failure (Option Text) × Unsteady σ :=
  if s.failing.head? = some true then (.error (.storage "unavailable".toList), ⟨s.store, s.failing.tail⟩)
  else ((Store.get s.store key).1, ⟨(Store.get s.store key).2, s.failing.tail⟩)

instance [LawfulStore σ] : DurableStore (Unsteady σ) where
  get := get
  set s key value := ((Store.set s.store key value).1, ⟨(Store.set s.store key value).2, s.failing⟩)
  delete s key := ((Store.delete s.store key).1, ⟨(Store.delete s.store key).2, s.failing⟩)
  find? s := LawfulStore.find? s.store
  get_eq_or s key := by
    unfold get
    split
    · exact .inr ⟨_, rfl⟩
    · exact .inl (LawfulStore.get_eq s.store key)
  find?_get s key k := by
    unfold get
    split
    · rfl
    · exact LawfulStore.find?_get s.store key k
  find?_set_self s := LawfulStore.find?_set_self s.store
  find?_set_of_ne s _ _ := LawfulStore.find?_set_of_ne s.store

end Unsteady
end ContentSearch
