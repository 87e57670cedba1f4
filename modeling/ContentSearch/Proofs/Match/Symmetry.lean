import ContentSearch.Proofs.Match.Distances
import ContentSearch.Proofs.Match.Table
import ContentSearch.Proofs.Number.Single

/-!
# Symmetry and bounds of the edit distance

The distance is the least cost of an alignment, so that its symmetries are those of alignments: each step can be turned
round, and all of them can be taken from right to left.  No alignment is needed that costs more than replacing the
characters pair by pair, and one that costs nothing keeps every character.

* `leastCost_comm`, `leastCost_le_max`, `leastCost_eq_zero_iff`: what this says of the least cost;
* `distance_symmetric`: and so of the distance, which is found by filling a table in one order only, and of its share of the
  longer length.
-/

namespace ContentSearch

/-! ## steps that are turned round -/

namespace Edit

/-- The step that leads back from the second text to the first. -/
def exchange : Edit → Edit
  | keep c => keep c
  | delete c => insert c
  | insert c => delete c
  | substitute c d => substitute d c
  | swap c d => swap d c

theorem source_exchange (e : Edit) : e.exchange.source = e.target := by cases e <;> rfl

theorem target_exchange (e : Edit) : e.exchange.target = e.source := by cases e <;> rfl

theorem cost_exchange (e : Edit) : e.exchange.cost = e.cost := by cases e <;> rfl

theorem source_eq_target_of_cost {e : Edit} (h : e.cost = 0) : e.source = e.target := by
  cases e with
  | keep c => rfl
  | delete _ => exact absurd h one_ne_zero
  | insert _ => exact absurd h one_ne_zero
  | substitute _ _ => exact absurd h one_ne_zero
  | swap _ _ => exact absurd h one_ne_zero

end Edit

/-! ## alignments -/

namespace Alignment

variable {a b : Text}

def exchange (l : Alignment a b) : Alignment b a where
  edits := l.edits.map Edit.exchange
  source_eq := by
    rw [List.flatMap_map, funext Edit.source_exchange, l.target_eq]
  target_eq := by
    rw [List.flatMap_map, funext Edit.target_exchange, l.source_eq]

theorem cost_exchange (l : Alignment a b) : l.exchange.cost = l.cost := by
  have hcost : Edit.cost ∘ Edit.exchange = Edit.cost := funext Edit.cost_exchange
  rw [cost, exchange, List.map_map, hcost]
  rfl

/-- Every character is kept. -/
def ofSelf (a : Text) : Alignment a a where
  edits := a.map .keep
  source_eq := by
    rw [List.flatMap_map]
    exact List.flatMap_singleton' a
  target_eq := by
    rw [List.flatMap_map]
    exact List.flatMap_singleton' a

theorem cost_ofSelf (a : Text) : (ofSelf a).cost = 0 := by
  rw [cost, ofSelf, List.map_map]
  exact List.sum_eq_zero fun n hn => by
    obtain ⟨c, -, rfl⟩ := List.mem_map.1 hn
    rfl

theorem eq_of_cost (l : Alignment a b) (h : l.cost = 0) : a = b := by
  obtain ⟨edits, rfl, rfl⟩ := l
  refine List.flatMap_congr fun e he => Edit.source_eq_target_of_cost ?_
  exact List.sum_eq_zero_iff.1 h e.cost (List.mem_map_of_mem he)

/-- The characters are substituted pair by pair, and what is left of one text is deleted or inserted. -/
def pairing : (a b : Text) → Alignment a b
  | [], b => replace [] b
  | c :: a, [] => replace (c :: a) []
  | c :: a, d :: b => (pairing a b).cons (.substitute c d)

theorem cost_pairing (a b : Text) : (pairing a b).cost = max a.length b.length := by
  fun_induction pairing a b with
  | case1 b => rw [cost_replace, List.length_nil, Nat.zero_add, Nat.zero_max]
  | case2 c a => rw [cost_replace, List.length_nil, Nat.add_zero, Nat.max_zero]
  | case3 c a d b ih =>
    have hcons : ((pairing a b).cons (.substitute c d)).cost = 1 + (pairing a b).cost := cost_cons ..
    rw [List.length_cons, List.length_cons, Nat.add_max_add_right, ← ih, Nat.add_comm]
    exact hcons

end Alignment

/-! ## the least cost -/

theorem leastCost_comm_le (a b : Text) : leastCost b a ≤ leastCost a b := by
  obtain ⟨l, hl⟩ := exists_alignment a b
  rw [← hl, ← l.cost_exchange]
  exact leastCost_le l.exchange

theorem leastCost_comm (a b : Text) : leastCost a b = leastCost b a :=
  Nat.le_antisymm (leastCost_comm_le b a) (leastCost_comm_le a b)

theorem leastCost_le_max (a b : Text) : leastCost a b ≤ max a.length b.length := by
  rw [← Alignment.cost_pairing]
  exact leastCost_le (.pairing a b)

theorem leastCost_eq_zero_iff {a b : Text} : leastCost a b = 0 ↔ a = b := by
  constructor
  · intro h
    obtain ⟨l, hl⟩ := exists_alignment a b
    exact l.eq_of_cost (hl.trans h)
  · rintro rfl
    have hle := leastCost_le (.ofSelf a)
    rw [Alignment.cost_ofSelf] at hle
    exact Nat.le_zero.1 hle

namespace EditDistance

/-! ## the share of the longer length -/

section Normalized

open Scalar Scalar.LawfulOrder Scalar.LawfulArithmetic

variable {α : Type} [Scalar α] {a b : Text}

theorem distance_comm (a b : Text) : distance a b = distance b a := by
  rw [distance_eq_leastCost, distance_eq_leastCost, leastCost_comm]

theorem normalized_comm (a b : Text) : (normalized a b : α) = normalized b a := by
  rw [normalized, normalized, distance_comm, max_comm]

/-- The share lies between 0 and 1, if the longer length is a finite number. -/
theorem normalized_bounds [LawfulArithmetic α] (h : isFinite (ofNat (max a.length b.length) : α) = true) :
    (ofNat 0 : α) ≤ normalized a b ∧ (normalized a b : α) ≤ ofNat 1 := by
  by_cases hlonger : max a.length b.length = 0
  · rw [normalized, if_pos hlonger]
    exact ⟨ofNat_le_self 0, zero_le_ofNat 1⟩
  · have hdistance : distance a b ≤ max a.length b.length := by
      rw [distance_eq_leastCost]
      exact leastCost_le_max a b
    have hself : (ofNat (distance a b) / ofNat (max a.length b.length) : α) ≤
        ofNat (distance a b) / ofNat (max a.length b.length) :=
      div_le_div (zero_le_ofNat _) (ofNat_le_self _) (zero_lt_ofNat (Nat.pos_of_ne_zero hlonger)) h
    have hnormalized : (normalized a b : α) = ofNat (distance a b) / ofNat (max a.length b.length) := by
      rw [normalized, if_neg hlonger]
    refine ⟨normalized_nonneg (by rw [hnormalized]; exact hself), ?_⟩
    rw [hnormalized]
    exact div_le_one (zero_le_ofNat _) (ofNat_le_ofNat hdistance) hself

end Normalized

/-- **Symmetry and bounds of the edit distance.**  For all texts, the distance is the same from the second to the first, and
from right to left; it is at least the difference of the lengths and at most the longer one; and it is 0 exactly if the texts
are the same.  Divided by the longer length it is symmetric and lies between 0 and 1: over exact rationals, and in single
precision for texts that fit into memory. -/
theorem distance_symmetric (a b : Text) :
    distance a b = distance b a ∧ distance a.reverse b.reverse = distance a b ∧
      |(a.length : ℤ) - b.length| ≤ distance a b ∧ distance a b ≤ max a.length b.length ∧
      (distance a b = 0 ↔ a = b) ∧
      ((normalized a b : Rat) = normalized b a ∧ 0 ≤ (normalized a b : Rat) ∧ (normalized a b : Rat) ≤ 1) ∧
      (normalized a b : Float32) = normalized b a ∧
      (a.length < wordSize → b.length < wordSize →
        0 ≤ (normalized a b : Float32) ∧ (normalized a b : Float32) ≤ 1) := by
  have hlength := length_le_leastCost a b
  refine ⟨distance_comm a b, ?_, ?_, ?_, ?_, ⟨normalized_comm a b, ?_⟩, normalized_comm a b, ?_⟩
  · rw [distance_eq_leastCost, distance_eq_leastCost, leastCost_reverse]
  · rw [distance_eq_leastCost, abs_le]
    omega
  · rw [distance_eq_leastCost]
    exact leastCost_le_max a b
  · rw [distance_eq_leastCost, leastCost_eq_zero_iff]
  · exact_mod_cast normalized_bounds (α := Rat) rfl
  · intro ha hb
    exact normalized_bounds (Single.isFinite_ofNat (max_lt ha hb))

theorem distance_symmetric_misspelt :
    "secruity".toList.length < wordSize ∧ "security".toList.length < wordSize ∧
      distance "secruity".toList "security".toList = distance "security".toList "secruity".toList ∧
      0 ≤ (normalized "secruity".toList "security".toList : Float32) ∧
      (normalized "secruity".toList "security".toList : Float32) ≤ 1 := by
  have hterm : "secruity".toList.length < wordSize := by decide
  have hword : "security".toList.length < wordSize := by decide
  obtain ⟨hcomm, -, -, -, -, -, -, hbounds⟩ := distance_symmetric "secruity".toList "security".toList
  exact ⟨hterm, hword, hcomm, hbounds hterm hword⟩

end EditDistance
end ContentSearch
