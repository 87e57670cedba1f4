import ContentSearch.Text.Basic
import Mathlib.Algebra.Order.Ring.Nat
import Mathlib.Order.Bounds.Defs
import Mathlib.Order.Lattice.Nat

/-!
# Alignments of two texts

An alignment goes through two texts from left to right and uses up each character of both in exactly one step: it keeps a
character, deletes one of the first text, inserts one of the second, substitutes one, or swaps two neighbours.  Every step
but keeping costs 1.

* `leastCost`: the least cost of an alignment, which one of them has (`exists_alignment`);
* `leastCost_cons_cons`, `leastCost_swap`: how it is found from the least costs of what is left after the first step;
* `leastCost_reverse`: it is the same from right to left;
* `length_le_leastCost`: and it is at least the difference in length.
-/

namespace ContentSearch

/-! ## steps -/

/-- A step of an alignment. -/
inductive Edit where
  | keep (c : Char)
  | delete (c : Char)
  | insert (c : Char)
  | substitute (c d : Char)
  /-- Two neighbours, which come in the other order in the second text. -/
  | swap (c d : Char)
  deriving Repr, DecidableEq

namespace Edit

/-- What a step uses up of the first text. -/
def source : Edit → Text
  | keep c => [c]
  | delete c => [c]
  | insert _ => []
  | substitute c _ => [c]
  | swap c d => [c, d]

/-- What a step uses up of the second text. -/
def target : Edit → Text
  | keep c => [c]
  | delete _ => []
  | insert c => [c]
  | substitute _ d => [d]
  | swap c d => [d, c]

def cost : Edit → Nat
  | keep _ => 0
  | _ => 1

def reverse : Edit → Edit
  | swap c d => swap d c
  | e => e

theorem source_reverse (e : Edit) : e.reverse.source = e.source.reverse := by cases e <;> rfl

theorem target_reverse (e : Edit) : e.reverse.target = e.target.reverse := by cases e <;> rfl

theorem cost_reverse (e : Edit) : e.reverse.cost = e.cost := by cases e <;> rfl

theorem length_source_le (e : Edit) : e.source.length ≤ e.target.length + e.cost := by
  cases e <;> simp [source, target, cost]

theorem length_target_le (e : Edit) : e.target.length ≤ e.source.length + e.cost := by
  cases e <;> simp [source, target, cost]

end Edit

/-! ## alignments -/

/-- An alignment of two texts: steps that together use up both. -/
structure Alignment (a b : Text) where
  edits : List Edit
  source_eq : edits.flatMap Edit.source = a
  target_eq : edits.flatMap Edit.target = b

namespace Alignment

variable {a b p q : Text} {c d : Char}

def cost (l : Alignment a b) : Nat := (l.edits.map Edit.cost).sum

/-- The alignment that starts with a step and goes on with another alignment. -/
def cons (e : Edit) (l : Alignment a b) : Alignment (e.source ++ a) (e.target ++ b) where
  edits := e :: l.edits
  source_eq := by rw [List.flatMap_cons, l.source_eq]
  target_eq := by rw [List.flatMap_cons, l.target_eq]

@[simp] theorem cost_cons (e : Edit) (l : Alignment a b) : (l.cons e).cost = e.cost + l.cost := by
  simp [cons, cost]

/-- The first text is deleted, and then the second one inserted. -/
def replace : (a b : Text) → Alignment a b
  | [], [] => ⟨[], rfl, rfl⟩
  | [], c :: b => (replace [] b).cons (.insert c)
  | c :: a, b => (replace a b).cons (.delete c)

theorem cost_replace (a b : Text) : (replace a b).cost = a.length + b.length := by
  fun_induction replace a b with
  | case1 => rfl
  | case2 c b ih =>
    have hcons : ((replace [] b).cons (.insert c)).cost = 1 + (replace [] b).cost := cost_cons ..
    rw [List.length_cons, ← Nat.add_assoc, ← ih, Nat.add_comm]
    exact hcons
  | case3 c a b ih =>
    have hcons : ((replace a b).cons (.delete c)).cost = 1 + (replace a b).cost := cost_cons ..
    rw [List.length_cons, Nat.add_right_comm, ← ih, Nat.add_comm]
    exact hcons

def reverse (l : Alignment a b) : Alignment a.reverse b.reverse where
  edits := (l.edits.map Edit.reverse).reverse
  source_eq := by
    have hsource : (fun e : Edit => (List.reverse ∘ Edit.source) e.reverse) = Edit.source := by
      funext e
      rw [Function.comp_apply, Edit.source_reverse, List.reverse_reverse]
    rw [List.flatMap_reverse, List.flatMap_map, hsource, l.source_eq]
  target_eq := by
    have htarget : (fun e : Edit => (List.reverse ∘ Edit.target) e.reverse) = Edit.target := by
      funext e
      rw [Function.comp_apply, Edit.target_reverse, List.reverse_reverse]
    rw [List.flatMap_reverse, List.flatMap_map, htarget, l.target_eq]

theorem cost_reverse (l : Alignment a b) : l.reverse.cost = l.cost := by
  have hcost : Edit.cost ∘ Edit.reverse = Edit.cost := funext Edit.cost_reverse
  rw [cost, reverse, List.map_reverse, List.sum_reverse, List.map_map, hcost]
  rfl

theorem length_le (l : Alignment a b) : a.length ≤ b.length + l.cost ∧ b.length ≤ a.length + l.cost := by
  obtain ⟨edits, rfl, rfl⟩ := l
  unfold cost
  dsimp only
  induction edits with
  | nil => simp
  | cons e edits ih =>
    have hsource := e.length_source_le
    have htarget := e.length_target_le
    simp only [List.flatMap_cons, List.length_append, List.map_cons, List.sum_cons]
    omega

/-- The first step of an alignment of two texts that are not empty, and what is left to align. -/
theorem exists_first (l : Alignment (c :: p) (d :: q)) :
    (∃ l' : Alignment p q, l'.cost + (if c = d then 0 else 1) ≤ l.cost) ∨
      (∃ l' : Alignment p (d :: q), l'.cost + 1 = l.cost) ∨
      (∃ l' : Alignment (c :: p) q, l'.cost + 1 = l.cost) ∨
      ∃ p' q', p = d :: p' ∧ q = c :: q' ∧ ∃ l' : Alignment p' q', l'.cost + 1 = l.cost := by
  obtain ⟨edits, hsource, htarget⟩ := l
  cases edits with
  | nil => exact absurd hsource (List.cons_ne_nil _ _).symm
  | cons e edits =>
    rw [List.flatMap_cons] at hsource htarget
    cases e with
    | keep _ =>
      obtain ⟨rfl, hp⟩ := List.cons.inj hsource
      obtain ⟨rfl, hq⟩ := List.cons.inj htarget
      exact .inl ⟨⟨edits, hp, hq⟩, by simp [cost, Edit.cost]⟩
    | delete _ =>
      obtain ⟨rfl, hp⟩ := List.cons.inj hsource
      exact .inr (.inl ⟨⟨edits, hp, htarget⟩, by simp [cost, Edit.cost, Nat.add_comm]⟩)
    | insert _ =>
      obtain ⟨rfl, hq⟩ := List.cons.inj htarget
      exact .inr (.inr (.inl ⟨⟨edits, hsource, hq⟩, by simp [cost, Edit.cost, Nat.add_comm]⟩))
    | substitute _ _ =>
      obtain ⟨rfl, hp⟩ := List.cons.inj hsource
      obtain ⟨rfl, hq⟩ := List.cons.inj htarget
      refine .inl ⟨⟨edits, hp, hq⟩, ?_⟩
      simp only [cost, List.map_cons, List.sum_cons, Edit.cost]
      split <;> omega
    | swap _ _ =>
      obtain ⟨rfl, hp⟩ := List.cons.inj hsource
      obtain ⟨rfl, hq⟩ := List.cons.inj htarget
      refine .inr (.inr (.inr ⟨_, _, hp.symm, hq.symm, ⟨edits, rfl, rfl⟩, ?_⟩))
      simp [cost, Edit.cost, Nat.add_comm]

end Alignment

/-! ## the least cost -/

/-- The least cost of an alignment of two texts. -/
noncomputable def leastCost (a b : Text) : Nat := sInf (Set.range (Alignment.cost : Alignment a b → Nat))

section LeastCost

variable {a b p q : Text} {c d : Char}

theorem exists_alignment (a b : Text) : ∃ l : Alignment a b, l.cost = leastCost a b :=
  Nat.sInf_mem (Set.range_nonempty_iff_nonempty.2 ⟨.replace a b⟩)

theorem leastCost_le (l : Alignment a b) : leastCost a b ≤ l.cost := Nat.sInf_le (Set.mem_range_self l)

theorem length_le_leastCost (a b : Text) :
    a.length ≤ b.length + leastCost a b ∧ b.length ≤ a.length + leastCost a b := by
  obtain ⟨l, hl⟩ := exists_alignment a b
  rw [← hl]
  exact l.length_le

theorem leastCost_nil_left (b : Text) : leastCost [] b = b.length := by
  have hle := leastCost_le (.replace [] b)
  have hlength := (length_le_leastCost [] b).2
  rw [Alignment.cost_replace, List.length_nil] at hle
  rw [List.length_nil] at hlength
  omega

theorem leastCost_nil_right (a : Text) : leastCost a [] = a.length := by
  have hle := leastCost_le (.replace a [])
  have hlength := (length_le_leastCost a []).1
  rw [Alignment.cost_replace, List.length_nil] at hle
  rw [List.length_nil] at hlength
  omega

theorem leastCost_append_le (e : Edit) (a b : Text) :
    leastCost (e.source ++ a) (e.target ++ b) ≤ e.cost + leastCost a b := by
  obtain ⟨l, hl⟩ := exists_alignment a b
  rw [← hl, ← Alignment.cost_cons]
  exact leastCost_le (l.cons e)

/-- The least cost of an alignment that does not start with a swap. -/
noncomputable def plainCost (c d : Char) (p q : Text) : Nat :=
  min (min (leastCost p (d :: q) + 1) (leastCost (c :: p) q + 1)) (leastCost p q + if c = d then 0 else 1)

theorem leastCost_le_plainCost (c d : Char) (p q : Text) : leastCost (c :: p) (d :: q) ≤ plainCost c d p q := by
  have hdelete : leastCost (c :: p) (d :: q) ≤ 1 + leastCost p (d :: q) := leastCost_append_le (.delete c) ..
  have hinsert : leastCost (c :: p) (d :: q) ≤ 1 + leastCost (c :: p) q := leastCost_append_le (.insert d) ..
  have hpair : leastCost (c :: p) (d :: q) ≤ leastCost p q + if c = d then 0 else 1 := by
    split
    · next h =>
      subst h
      have hkeep : leastCost (c :: p) (c :: q) ≤ 0 + leastCost p q := leastCost_append_le (.keep c) ..
      omega
    · have hsubstitute : leastCost (c :: p) (d :: q) ≤ 1 + leastCost p q := leastCost_append_le (.substitute c d) ..
      omega
  unfold plainCost
  omega

/-- An alignment costs at least what its first step and the least cost of the rest come to. -/
theorem plainCost_le_or_swap (l : Alignment (c :: p) (d :: q)) :
    plainCost c d p q ≤ l.cost ∨ ∃ p' q', p = d :: p' ∧ q = c :: q' ∧ leastCost p' q' + 1 ≤ l.cost := by
  unfold plainCost
  rcases l.exists_first with ⟨l', hl'⟩ | ⟨l', hl'⟩ | ⟨l', hl'⟩ | ⟨p', q', hp, hq, l', hl'⟩
  · have hle := leastCost_le l'
    left
    omega
  · have hle := leastCost_le l'
    left
    omega
  · have hle := leastCost_le l'
    left
    omega
  · have hle := leastCost_le l'
    exact .inr ⟨p', q', hp, hq, by omega⟩

/-- The least cost for texts that do not start with the same two characters in turned order. -/
theorem leastCost_cons_cons (h : ∀ p' q', p = d :: p' → q ≠ c :: q') :
    leastCost (c :: p) (d :: q) = plainCost c d p q := by
  obtain ⟨l, hl⟩ := exists_alignment (c :: p) (d :: q)
  refine Nat.le_antisymm (leastCost_le_plainCost c d p q) ?_
  rcases plainCost_le_or_swap l with hle | ⟨p', q', hp, hq, -⟩
  · rwa [← hl]
  · exact absurd hq (h p' q' hp)

/-- The least cost for texts that do. -/
theorem leastCost_swap (c d : Char) (p q : Text) :
    leastCost (c :: d :: p) (d :: c :: q) = min (plainCost c d (d :: p) (c :: q)) (leastCost p q + 1) := by
  have hplain := leastCost_le_plainCost c d (d :: p) (c :: q)
  have hswap : leastCost (c :: d :: p) (d :: c :: q) ≤ 1 + leastCost p q := leastCost_append_le (.swap c d) ..
  obtain ⟨l, hl⟩ := exists_alignment (c :: d :: p) (d :: c :: q)
  rcases plainCost_le_or_swap l with hle | ⟨p', q', hp, hq, hle⟩
  · omega
  · obtain rfl : p = p' := (List.cons.inj hp).2
    obtain rfl : q = q' := (List.cons.inj hq).2
    omega

theorem leastCost_reverse_le (a b : Text) : leastCost a.reverse b.reverse ≤ leastCost a b := by
  obtain ⟨l, hl⟩ := exists_alignment a b
  rw [← hl, ← l.cost_reverse]
  exact leastCost_le l.reverse

theorem leastCost_reverse (a b : Text) : leastCost a.reverse b.reverse = leastCost a b := by
  refine Nat.le_antisymm (leastCost_reverse_le a b) ?_
  have hle := leastCost_reverse_le a.reverse b.reverse
  rwa [List.reverse_reverse, List.reverse_reverse] at hle

end LeastCost
end ContentSearch
