import ContentSearch.Store.Basic

/-!
Stores some of whose operations are out of order.
-/

namespace ContentSearch

inductive StoreOperation where
  | get
  | set
  | delete
  deriving Repr, DecidableEq

/-- A store some of whose operations are out of order, which leave it as it is. -/
structure Outage (σ : Type) where
  store : σ
  broken : List StoreOperation

namespace Outage

variable {σ : Type}

def unavailable : Failure := .storage "unavailable".toList

/-- The outcome of an operation on the store, unless it is out of order. -/
def attempt {β : Type} (s : Outage σ) (o : StoreOperation)
    (run : σ → Except Failure β × σ) : Except Failure β × Outage σ :=
  if s.broken.contains o then (.error unavailable, s)
  else
    let (r, store) := run s.store
    (r, { s with store })

instance [Store σ] : Store (Outage σ) where
  get s key := s.attempt .get fun store => Store.get store key
  set s key value := s.attempt .set fun store => Store.set store key value
  delete s key := s.attempt .delete fun store => Store.delete store key

end Outage
end ContentSearch
