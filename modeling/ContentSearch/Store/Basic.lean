import ContentSearch.Dictionary
import ContentSearch.Failure

/-!
Stores of texts under keys. Every operation may fail, and yields the store that it leaves behind
even then. Dictionaries are the stores in which nothing fails.
-/

namespace ContentSearch

/-- A type of stores of texts under keys. -/
class Store (σ : Type) where
  /-- The text under a key, if there is one. -/
  get : σ → Text → Except Failure (Option Text) × σ
  /-- Puts a text under a key. -/
  set : σ → Text → Text → Except Failure Unit × σ
  /-- Takes away what is under a key, if anything is. -/
  delete : σ → Text → Except Failure Unit × σ

instance : Store (Dictionary Text) where
  get d key := (.ok (d.find? key), d)
  set d key value := (.ok (), d.insert key value)
  delete d key := (.ok (), d.erase key)

end ContentSearch
