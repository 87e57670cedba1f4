import ContentSearch.Store.Basic

/-!
# Stores in which nothing fails

A lawful store answers with the text that was put under a key last, and an operation on one key leaves all other keys as
they are.  Dictionaries are such stores.
-/

namespace ContentSearch

/-- A store in which nothing fails: `find?` is the text that it holds under a key. -/
class LawfulStore (σ : Type) extends Store σ where
  find? : σ → Text → Option Text
  get_eq (s : σ) (key : Text) : (get s key).1 = .ok (find? s key)
  find?_get (s : σ) (key k : Text) : find? (get s key).2 k = find? s k
  find?_set_self (s : σ) (key value : Text) : find? (set s key value).2 key = some value
  find?_set_of_ne (s : σ) {key k : Text} (value : Text) (h : k ≠ key) : find? (set s key value).2 k = find? s k
  find?_delete_self (s : σ) (key : Text) : find? (delete s key).2 key = none
  find?_delete_of_ne (s : σ) {key k : Text} (h : k ≠ key) : find? (delete s key).2 k = find? s k

instance : LawfulStore (Dictionary Text) where
  find? := Dictionary.find?
  get_eq _ _ := rfl
  find?_get _ _ _ := rfl
  find?_set_self := Dictionary.find?_insert_self
  find?_set_of_ne d _ _ value h := d.find?_insert_of_ne value h
  find?_delete_self := Dictionary.find?_erase_self
  find?_delete_of_ne d _ _ h := d.find?_erase_of_ne h

end ContentSearch
