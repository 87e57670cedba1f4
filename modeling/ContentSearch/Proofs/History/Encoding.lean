import ContentSearch.History.Entry
import ContentSearch.Proofs.Json.Ranges
import ContentSearch.Proofs.Json.RoundTrip

/-!
# The stored text of a history

* `decode?_encode`: the entries that fit in machine words are read back from the text they are stored as;
* `inRange_of_decode?`: no others are ever read.
-/

namespace ContentSearch.HistoryEntry

/-- The numbers of an entry fit in 64 bits, the time with a sign. -/
structure InRange (e : HistoryEntry) : Prop where
  lower : -(signedBound : Int) ≤ e.timestamp
  upper : e.timestamp < signedBound
  count : e.resultCount < wordSize

/-! ## writing and reading -/

theorem plain_toJson {e : HistoryEntry} (he : e.InRange) : e.toJson.Plain := by
  have hbound : (signedBound : Int) < wordSize := by decide
  have hlower := he.lower
  have hupper := he.upper
  have hcount := he.count
  refine ⟨trivial, ⟨hlower, by omega⟩, ⟨?_, ?_⟩, trivial⟩
  · show -(signedBound : Int) ≤ (e.resultCount : Int)
    omega
  · show (e.resultCount : Int) < wordSize
    omega

theorem ofTree?_toJson {e : HistoryEntry} (he : e.InRange) : ofTree? e.toJson.toTree = some e := by
  have hfields : e.toJson.toTree.fields? (["query", "timestamp", "resultCount"].map String.toList) =
      some [some (.string (some e.query)), some (.number (some (.integer e.timestamp))),
        some (.number (some (.integer e.resultCount)))] := rfl
  have htime : JsonTree.signed? (.number (some (.integer e.timestamp))) = some e.timestamp := if_pos he.upper
  have hcount : JsonTree.natural? (.number (some (.integer e.resultCount))) = some e.resultCount := by
    simp [JsonTree.natural?, JsonTree.integer?]
  rw [ofTree?, hfields]
  simp only [JsonTree.required?, Option.bind_eq_bind, Option.bind_some, htime, hcount]
  rfl

/-- **The entries of a history are read back from their text.** -/
theorem decode?_encode {l : List HistoryEntry} (hl : ∀ e ∈ l, e.InRange) : decode? (encode l) = some l := by
  have hplain : (Json.array (l.map toJson)).Plain := by
    show Json.PlainItems (l.map toJson)
    induction l with
    | nil => exact trivial
    | cons e l ih => exact ⟨plain_toJson (hl e (by simp)), ih fun e' he' => hl e' (List.mem_cons_of_mem _ he')⟩
  have hitems : (Json.itemTrees (l.map toJson)).mapM ofTree? = some l := by
    clear hplain
    induction l with
    | nil => rfl
    | cons e l ih =>
      rw [List.map_cons, Json.itemTrees, List.mapM_cons, ofTree?_toJson (hl e (by simp)),
        ih fun e' he' => hl e' (List.mem_cons_of_mem _ he')]
      rfl
  rw [decode?, encode, Json.read?_compact hplain]
  exact hitems

/-! ## what is read -/

theorem inRange_of_ofTree? {t : JsonTree} (ht : t.InRange) {e : HistoryEntry} (h : ofTree? t = some e) :
    e.InRange := by
  obtain ⟨fields, hfields, h⟩ := Option.bind_eq_some_iff.1 h
  have hparts := JsonTree.inRange_of_fields? ht hfields
  split at h
  · next query timestamp resultCount =>
    obtain ⟨q, -, h⟩ := Option.bind_eq_some_iff.1 h
    obtain ⟨n, hn, h⟩ := Option.bind_eq_some_iff.1 h
    obtain ⟨k, hk, h⟩ := Option.bind_eq_some_iff.1 h
    obtain rfl := Option.some.inj h
    obtain ⟨v, rfl, hn⟩ := Option.bind_eq_some_iff.1 hn
    obtain ⟨w, rfl, hk⟩ := Option.bind_eq_some_iff.1 hk
    obtain ⟨hlower, hupper⟩ := JsonTree.bounds_of_signed? (hparts v (by simp)) hn
    exact ⟨hlower, hupper, JsonTree.lt_of_natural? (hparts w (by simp)) hk⟩
  · simp at h

theorem inRange_of_decode? {t : Text} {l : List HistoryEntry} (h : decode? t = some l) : ∀ e ∈ l, e.InRange := by
  obtain ⟨tree, htree, h⟩ := Option.bind_eq_some_iff.1 h
  have hrange := JsonTree.inRange_of_read? htree
  unfold JsonTree.list? at h
  split at h
  · intro e he
    obtain ⟨item, hitem, hof⟩ := exists_of_mem_right (mapM_eq_some_iff.1 h) he
    exact inRange_of_ofTree? (JsonTree.itemsInRange_iff.1 hrange item hitem) hof
  · simp at h

end ContentSearch.HistoryEntry
