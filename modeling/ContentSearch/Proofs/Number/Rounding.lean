import Mathlib.Data.Int.Log
import Mathlib.Data.Rat.Floor
import Mathlib.Tactic.Linarith
import Mathlib.Tactic.Positivity
import Mathlib.Tactic.Ring

/-!
# Rounding to single precision

A number in single precision is a natural number below `2 ^ 24` times a power of 2, of which `2 ^ -149` is the least.  A
rational number that is not negative is rounded to the nearest multiple of the power that is right for its size, the even
one of two, and to `2 ^ 128`, which stands for infinity, if that is less.

* `exponent_eq_iff`: the power that is right for a number;
* `rounded_le_rounded`: rounding keeps the order;
* `mantissa_mul_exponent`: it does not change what is a multiple of the right power.
-/

namespace ContentSearch.Single

/-! ## natural numbers -/

/-- The nearest natural number, the even one of two. -/
def roundEven (x : ℚ) : ℕ :=
  if x < ⌊x⌋₊ + 1 / 2 then ⌊x⌋₊
  else if ⌊x⌋₊ + 1 / 2 < x then ⌊x⌋₊ + 1
  else ⌊x⌋₊ + ⌊x⌋₊ % 2

theorem floor_le_roundEven (x : ℚ) : ⌊x⌋₊ ≤ roundEven x := by
  unfold roundEven
  split_ifs <;> omega

theorem roundEven_le (x : ℚ) : roundEven x ≤ ⌊x⌋₊ + 1 := by
  unfold roundEven
  split_ifs <;> omega

@[simp] theorem roundEven_natCast (n : ℕ) : roundEven n = n := by
  rw [roundEven, Nat.floor_natCast, if_pos (by linarith)]

theorem roundEven_mono {x y : ℚ} (h : x ≤ y) : roundEven x ≤ roundEven y := by
  rcases (Nat.floor_mono h).lt_or_eq with hlt | heq
  · calc roundEven x ≤ ⌊x⌋₊ + 1 := roundEven_le x
      _ ≤ ⌊y⌋₊ := hlt
      _ ≤ roundEven y := floor_le_roundEven y
  · -- the two numbers lie between the same natural numbers
    unfold roundEven
    rw [heq]
    split_ifs <;> first | omega | linarith

theorem natCast_le_roundEven {n : ℕ} {x : ℚ} (h : (n : ℚ) ≤ x) : n ≤ roundEven x := by
  rw [← roundEven_natCast n]
  exact roundEven_mono h

theorem roundEven_le_natCast {n : ℕ} {x : ℚ} (h : x ≤ n) : roundEven x ≤ n := by
  rw [← roundEven_natCast n]
  exact roundEven_mono h

/-! ## exponents -/

theorem two_zpow_pos (t : ℤ) : (0 : ℚ) < 2 ^ t := zpow_pos two_pos t

theorem two_zpow_add (s t : ℤ) : (2 : ℚ) ^ (s + t) = 2 ^ s * 2 ^ t := zpow_add₀ two_ne_zero s t

theorem two_zpow_le_two_zpow {s t : ℤ} (h : s ≤ t) : (2 : ℚ) ^ s ≤ 2 ^ t := zpow_le_zpow_right₀ one_le_two h

theorem lt_of_two_zpow_lt {s t : ℤ} (h : (2 : ℚ) ^ s < 2 ^ t) : s < t := (zpow_lt_zpow_iff_right₀ one_lt_two).1 h

/-- The power of 2 of which numbers of the size of `x` are multiples. -/
def exponent (x : ℚ) : ℤ := Int.log 2 (max x (2 ^ (-126 : ℤ))) - 23

theorem exponent_mono {x y : ℚ} (h : x ≤ y) : exponent x ≤ exponent y := by
  have hlog : Int.log 2 (max x (2 ^ (-126 : ℤ))) ≤ Int.log 2 (max y (2 ^ (-126 : ℤ))) :=
    Int.log_mono_right (lt_max_of_lt_right (two_zpow_pos _)) (max_le_max_right _ h)
  exact Int.sub_le_sub_right hlog _

/-- A power is right for a number if the number is less than the greatest multiple, and not so small that a lesser power
would do. -/
theorem exponent_eq_iff {x : ℚ} {t : ℤ} :
    exponent x = t ↔ -149 ≤ t ∧ x < 2 ^ (t + 24) ∧ (t = -149 ∨ 2 ^ (t + 23) ≤ x) := by
  have hpos : (0 : ℚ) < max x (2 ^ (-126 : ℤ)) := lt_max_of_lt_right (two_zpow_pos _)
  have hlog : exponent x = t ↔
      (2 : ℚ) ^ (t + 23) ≤ max x (2 ^ (-126 : ℤ)) ∧ max x (2 ^ (-126 : ℤ)) < (2 : ℚ) ^ (t + 24) := by
    have hle := Int.zpow_le_iff_le_log (b := 2) (x := t + 23) one_lt_two hpos
    have hlt := Int.lt_zpow_iff_log_lt (b := 2) (x := t + 24) one_lt_two hpos
    rw [Nat.cast_ofNat] at hle hlt
    rw [hle, hlt, exponent]
    omega
  have hleast {s : ℤ} : (2 : ℚ) ^ (s + 23) ≤ 2 ^ (-126 : ℤ) ↔ s ≤ -149 := by
    rw [zpow_le_zpow_iff_right₀ one_lt_two]
    omega
  have hless {s : ℤ} : (2 : ℚ) ^ (-126 : ℤ) < 2 ^ (s + 24) ↔ -149 ≤ s := by
    rw [zpow_lt_zpow_iff_right₀ one_lt_two]
    omega
  rw [hlog, le_max_iff, max_lt_iff, hleast, hless]
  constructor
  · rintro ⟨hle, hlt, ht⟩
    refine ⟨ht, hlt, ?_⟩
    rcases hle with hle | hle
    · exact .inr hle
    · exact .inl (le_antisymm hle ht)
  · rintro ⟨ht, hlt, rfl | hle⟩
    · exact ⟨.inr le_rfl, hlt, ht⟩
    · exact ⟨.inl hle, hlt, ht⟩

theorem lt_two_zpow_exponent (x : ℚ) : x < 2 ^ (exponent x + 24) := (exponent_eq_iff.1 rfl).2.1

theorem le_exponent (x : ℚ) : -149 ≤ exponent x := (exponent_eq_iff.1 rfl).1

theorem exponent_cases (x : ℚ) : exponent x = -149 ∨ 2 ^ (exponent x + 23) ≤ x := (exponent_eq_iff.1 rfl).2.2

/-! ## rounding -/

/-- The multiple of the right power of 2 that a number is rounded to. -/
def mantissa (x : ℚ) : ℕ := roundEven (x / 2 ^ exponent x)

theorem mantissa_le (x : ℚ) : mantissa x ≤ 2 ^ 24 := by
  refine roundEven_le_natCast ?_
  rw [div_le_iff₀ (two_zpow_pos _)]
  have h := (lt_two_zpow_exponent x).le
  rw [add_comm, two_zpow_add] at h
  exact_mod_cast h

theorem le_mantissa (x : ℚ) : exponent x = -149 ∨ 2 ^ 23 ≤ mantissa x := by
  refine (exponent_cases x).imp_right fun h => natCast_le_roundEven ?_
  rw [le_div_iff₀ (two_zpow_pos _)]
  rw [add_comm, two_zpow_add] at h
  exact_mod_cast h

theorem mantissa_mul_le {x y : ℚ} (h : x ≤ y) :
    (mantissa x : ℚ) * 2 ^ exponent x ≤ mantissa y * 2 ^ exponent y := by
  rcases (exponent_mono h).lt_or_eq with hlt | heq
  · -- all multiples for the size of `x` are no greater than the ones for that of `y`
    have hy : (2 : ℚ) ^ 23 ≤ mantissa y := by
      have hmantissa := (le_mantissa y).resolve_left (by have := le_exponent x; omega)
      exact_mod_cast hmantissa
    calc (mantissa x : ℚ) * 2 ^ exponent x ≤ 2 ^ 24 * 2 ^ exponent x := by
          have hx : (mantissa x : ℚ) ≤ 2 ^ 24 := by exact_mod_cast mantissa_le x
          exact mul_le_mul_of_nonneg_right hx (two_zpow_pos _).le
      _ = 2 ^ 23 * 2 ^ (exponent x + 1) := by rw [two_zpow_add]; ring
      _ ≤ 2 ^ 23 * 2 ^ exponent y := mul_le_mul_of_nonneg_left (two_zpow_le_two_zpow hlt) (by positivity)
      _ ≤ mantissa y * 2 ^ exponent y := mul_le_mul_of_nonneg_right hy (two_zpow_pos _).le
  · have hmantissa : mantissa x ≤ mantissa y := by
      unfold mantissa
      rw [heq]
      exact roundEven_mono (div_le_div_of_nonneg_right h (two_zpow_pos _).le)
    rw [heq]
    exact mul_le_mul_of_nonneg_right (Nat.cast_le.2 hmantissa) (two_zpow_pos _).le

/-- The number in single precision that a number is rounded to, `2 ^ 128` standing for infinity. -/
def rounded (x : ℚ) : ℚ := min (2 ^ 128) (mantissa x * 2 ^ exponent x)

/-- **Rounding keeps the order.** -/
theorem rounded_le_rounded {x y : ℚ} (h : x ≤ y) : rounded x ≤ rounded y := min_le_min_left _ (mantissa_mul_le h)

theorem rounded_le (x : ℚ) : rounded x ≤ 2 ^ 128 := min_le_left ..

theorem mantissa_mul_exponent {m : ℕ} {e : ℤ} (h : exponent ((m : ℚ) * 2 ^ e) ≤ e) :
    (mantissa ((m : ℚ) * 2 ^ e) : ℚ) * 2 ^ exponent ((m : ℚ) * 2 ^ e) = m * 2 ^ e := by
  rw [mantissa]
  generalize exponent ((m : ℚ) * 2 ^ e) = t at h ⊢
  obtain ⟨k, rfl⟩ := Int.le.dest h
  have hdiv : (m : ℚ) * 2 ^ (t + k) / 2 ^ t = (m * 2 ^ k : ℕ) := by
    rw [div_eq_iff (two_zpow_pos _).ne', two_zpow_add, zpow_natCast]
    push_cast
    ring
  rw [hdiv, roundEven_natCast, ← hdiv, div_mul_cancel₀ _ (two_zpow_pos _).ne']

end ContentSearch.Single
