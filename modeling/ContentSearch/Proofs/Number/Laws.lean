import ContentSearch.Number.Scalar
import Mathlib.Algebra.Order.Field.Rat
import Mathlib.Data.List.Forall2

/-!
# Laws of numbers

What exact rationals and single precision have in common.  A number type may hold values that are no numbers; these have
no place in its order, not even with themselves, so that `a ≤ a` says that `a` is a number.  Numbers may be infinite, and
operations may round, but rounding keeps the order.

* `LawfulOrder`: all numbers are comparable;
* `LawfulArithmetic`: the operations keep the order of the numbers that are not negative, which are all that scores are
  computed from.
-/

namespace ContentSearch.Scalar

/-- The order of a type of numbers. -/
class LawfulOrder (α : Type) [Scalar α] : Prop where
  le_trans {a b c : α} : a ≤ b → b ≤ c → a ≤ c
  le_self_left {a b : α} : a ≤ b → a ≤ a
  le_self_right {a b : α} : a ≤ b → b ≤ b
  le_self_of_isFinite {a : α} : isFinite a = true → a ≤ a
  le_total {a b : α} : a ≤ a → b ≤ b → a ≤ b ∨ b ≤ a
  lt_iff {a b : α} : a < b ↔ a ≤ b ∧ ¬ b ≤ a
  beq_iff {a b : α} : (a == b) = true ↔ a ≤ b ∧ b ≤ a
  ofNat_le_ofNat {m n : Nat} : m ≤ n → (ofNat m : α) ≤ ofNat n

/-- The operations on the numbers from 0 on. An operation on something that is no number gives none, and dividing by what
is infinite leaves nothing. -/
class LawfulArithmetic (α : Type) [Scalar α] : Prop extends LawfulOrder α where
  zero_lt_one : (ofNat 0 : α) < ofNat 1
  isFinite_one : isFinite (ofNat 1 : α) = true
  isFinite_of_le {a b : α} : ofNat 0 ≤ a → a ≤ b → isFinite b = true → isFinite a = true
  le_add {a b : α} : ofNat 0 ≤ a → ofNat 0 ≤ b → a ≤ a + b
  add_le_add {a b c d : α} : ofNat 0 ≤ a → ofNat 0 ≤ c → a ≤ b → c ≤ d → a + c ≤ b + d
  le_self_of_sub {a b : α} : a - b ≤ a - b → b ≤ b
  sub_nonneg {a b : α} : ofNat 0 ≤ a → a ≤ b → isFinite b = true → ofNat 0 ≤ b - a
  sub_le_sub {a b c : α} : ofNat 0 ≤ a → a ≤ b → b ≤ c → isFinite c = true → c - b ≤ c - a
  le_self_of_mul {a b : α} : a * b ≤ a * b → a ≤ a ∧ b ≤ b
  mul_nonneg {a b : α} : ofNat 0 ≤ a → ofNat 0 ≤ b → a * b ≤ a * b → ofNat 0 ≤ a * b
  mul_le_mul {a b c : α} : ofNat 0 ≤ a → a ≤ b → ofNat 0 < c → isFinite c = true → c * a ≤ c * b
  le_self_of_div {a b : α} : a / b ≤ a / b → b ≤ b
  div_nonneg {a b : α} : ofNat 0 ≤ a → ofNat 0 < b → a / b ≤ a / b → ofNat 0 ≤ a / b
  div_le_one {a b : α} : ofNat 0 ≤ a → a ≤ b → a / b ≤ a / b → a / b ≤ ofNat 1
  div_le_div {a b c : α} : ofNat 0 ≤ a → a ≤ b → ofNat 0 < c → isFinite c = true → a / c ≤ b / c
  isFinite_of_div_pos {a b : α} : ofNat 0 ≤ a → ofNat 0 ≤ b → ofNat 0 < a / b → isFinite b = true

/-! ## exact rationals -/

@[simp] theorem ofNat_rat (n : Nat) : (ofNat n : Rat) = n := rfl

instance : LawfulArithmetic Rat where
  le_trans := le_trans
  le_self_left _ := le_rfl
  le_self_right _ := le_rfl
  le_self_of_isFinite _ := le_rfl
  le_total _ _ := le_total ..
  lt_iff := lt_iff_le_not_ge
  beq_iff := by
    intro a b
    rw [beq_iff_eq]
    exact le_antisymm_iff
  ofNat_le_ofNat h := Nat.cast_le.2 h
  zero_lt_one := zero_lt_one
  isFinite_one := rfl
  isFinite_of_le _ _ _ := rfl
  le_add _ hb := le_add_of_nonneg_right hb
  add_le_add _ _ := add_le_add
  le_self_of_sub _ := le_rfl
  sub_nonneg _ h _ := sub_nonneg.2 h
  sub_le_sub _ h _ _ := sub_le_sub_left h _
  le_self_of_mul _ := ⟨le_rfl, le_rfl⟩
  mul_nonneg ha hb _ := mul_nonneg ha hb
  mul_le_mul _ h hc _ := mul_le_mul_of_nonneg_left h hc.le
  le_self_of_div _ := le_rfl
  div_nonneg ha hb _ := div_nonneg ha hb.le
  div_le_one ha h _ := div_le_one_of_le₀ h (ha.trans h)
  div_le_div _ h hc _ := div_le_div_of_nonneg_right h hc.le
  isFinite_of_div_pos _ _ _ := rfl

/-! ## the order -/

section Order

variable {α : Type} [Scalar α] [LawfulOrder α] {a b c : α}

open LawfulOrder

theorem ofNat_le_self (n : Nat) : (ofNat n : α) ≤ ofNat n := ofNat_le_ofNat le_rfl

theorem zero_le_ofNat (n : Nat) : (ofNat 0 : α) ≤ ofNat n := ofNat_le_ofNat (Nat.zero_le n)

theorem le_of_lt (h : a < b) : a ≤ b := (lt_iff.1 h).1

theorem lt_of_lt_of_le (hab : a < b) (hbc : b ≤ c) : a < c :=
  lt_iff.2 ⟨le_trans (le_of_lt hab) hbc, fun hca => (lt_iff.1 hab).2 (le_trans hbc hca)⟩

theorem lt_of_le_of_lt (hab : a ≤ b) (hbc : b < c) : a < c :=
  lt_iff.2 ⟨le_trans hab (le_of_lt hbc), fun hca => (lt_iff.1 hbc).2 (le_trans hca hab)⟩

theorem lt_of_not_le (ha : a ≤ a) (hb : b ≤ b) (h : ¬ b ≤ a) : a < b :=
  lt_iff.2 ⟨(le_total ha hb).resolve_right h, h⟩

theorem le_of_not_lt (ha : a ≤ a) (hb : b ≤ b) (h : ¬ a < b) : b ≤ a := by
  by_contra hba
  exact h (lt_of_not_le ha hb hba)

theorem not_lt_of_le (h : a ≤ b) : ¬ b < a := fun hba => (lt_iff.1 hba).2 h

end Order

/-! ## sums -/

section Sums

variable {α : Type} [Scalar α] [LawfulArithmetic α] {a b : α} {l m : List α}

open LawfulOrder LawfulArithmetic

theorem zero_lt_ofNat {n : Nat} (hn : 0 < n) : (ofNat 0 : α) < ofNat n := lt_of_lt_of_le zero_lt_one (ofNat_le_ofNat hn)

theorem add_nonneg (ha : ofNat 0 ≤ a) (hb : ofNat 0 ≤ b) : ofNat 0 ≤ a + b := le_trans ha (le_add ha hb)

theorem le_foldl_add (ha : ofNat 0 ≤ a) (hl : ∀ b ∈ l, ofNat 0 ≤ b) : a ≤ l.foldl (· + ·) a := by
  induction l generalizing a with
  | nil => exact le_self_right ha
  | cons b l ih =>
    obtain ⟨hb, hl⟩ := List.forall_mem_cons.1 hl
    exact le_trans (le_add ha hb) (ih (add_nonneg ha hb) hl)

theorem foldl_add_le_foldl_add (h : List.SublistForall₂ (· ≤ ·) l m) (hl : ∀ c ∈ l, ofNat 0 ≤ c) (hm : ∀ c ∈ m, ofNat 0 ≤ c)
    (ha : ofNat 0 ≤ a) (hab : a ≤ b) : l.foldl (· + ·) a ≤ m.foldl (· + ·) b := by
  induction h generalizing a b with
  | nil => exact le_trans hab (le_foldl_add (le_trans ha hab) hm)
  | cons hcd _ ih =>
    obtain ⟨hc, hl⟩ := List.forall_mem_cons.1 hl
    obtain ⟨-, hm⟩ := List.forall_mem_cons.1 hm
    exact ih hl hm (add_nonneg ha hc) (add_le_add ha hc hab hcd)
  | cons_right _ ih =>
    obtain ⟨hd, hm⟩ := List.forall_mem_cons.1 hm
    have hb : ofNat 0 ≤ b := le_trans ha hab
    exact ih hl hm ha (le_trans hab (le_add hb hd))

end Sums

/-! ## the unit interval -/

section UnitInterval

variable {α : Type} [Scalar α]

open LawfulOrder LawfulArithmetic

theorem clampUnit_eq_self [LawfulOrder α] {x : α} (h₀ : ofNat 0 ≤ x) (h₁ : x ≤ ofNat 1) : clampUnit x = x := by
  rw [clampUnit, if_neg (not_lt_of_le h₀), if_neg (not_lt_of_le h₁)]

theorem clampUnit_cases [LawfulOrder α] {x : α} (h₀ : ofNat 0 ≤ x) :
    (x ≤ ofNat 1 ∧ clampUnit x = x) ∨ (ofNat 1 ≤ x ∧ clampUnit x = ofNat 1) := by
  by_cases h₁ : ofNat 1 < x
  · exact .inr ⟨le_of_lt h₁, by rw [clampUnit, if_neg (not_lt_of_le h₀), if_pos h₁]⟩
  · have hle : x ≤ ofNat 1 := le_of_not_lt (ofNat_le_self 1) (le_self_right h₀) h₁
    exact .inl ⟨hle, clampUnit_eq_self h₀ hle⟩

theorem clampUnit_le_clampUnit [LawfulOrder α] {x y : α} (h₀ : ofNat 0 ≤ x) (h : x ≤ y) : clampUnit x ≤ clampUnit y := by
  obtain ⟨hx, hx'⟩ | ⟨hx, hx'⟩ := clampUnit_cases h₀ <;>
    obtain ⟨hy, hy'⟩ | ⟨hy, hy'⟩ := clampUnit_cases (le_trans h₀ h) <;> rw [hx', hy']
  · exact h
  · exact hx
  · exact le_trans hx h
  · exact ofNat_le_self 1

theorem isFinite_clampUnit [LawfulArithmetic α] {x : α} (h₀ : ofNat 0 ≤ x) : isFinite (clampUnit x) = true := by
  obtain ⟨hx, hx'⟩ | ⟨-, hx'⟩ := clampUnit_cases h₀ <;> rw [hx']
  · exact isFinite_of_le h₀ hx isFinite_one
  · exact isFinite_one

theorem clampUnit_pos [LawfulArithmetic α] {x : α} (h : ofNat 0 < x) : ofNat 0 < clampUnit x := by
  obtain ⟨-, hx⟩ | ⟨-, hx⟩ := clampUnit_cases (le_of_lt h) <;> rw [hx]
  · exact h
  · exact zero_lt_one

theorem pos_of_clampUnit [LawfulArithmetic α] {x : α} (hfinite : isFinite (clampUnit x) = true)
    (hpos : ¬ clampUnit x ≤ ofNat 0) : ofNat 0 < x := by
  unfold clampUnit at hfinite hpos
  split at hpos
  · exact absurd (ofNat_le_self 0) hpos
  next hneg =>
  rw [if_neg hneg] at hfinite
  split at hpos
  · next hone => exact lt_of_lt_of_le zero_lt_one (le_of_lt hone)
  next hone =>
  rw [if_neg hone] at hfinite
  exact lt_of_not_le (ofNat_le_self 0) (le_self_of_isFinite hfinite) hpos

end UnitInterval

end ContentSearch.Scalar
