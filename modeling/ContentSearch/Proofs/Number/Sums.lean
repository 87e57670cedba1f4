import ContentSearch.Proofs.Number.Single

/-!
# How far rounding goes

Rounding goes to a nearest number, so that it goes no further up than any number lies below.  It follows how large a sum may
become that is rounded after each summand.

* `rounded_le_reflect`: rounding goes no further up than any number lies below;
* `summed_le`: a rounded sum is at most twice the exact one, however many summands it has;
* `rounded_pos_iff`: what is not rounded to 0;
* `IsNumber.le_one_sub`: how close to 1 a lesser number may be;
* `isNumber_foldl_add`, `isNumber_sum`: sums in single precision are rounded ones.
-/

namespace ContentSearch.Single

/-! ## to a nearest number -/

theorem roundEven_le_reflect {n : ℕ} {x : ℚ} (h : (n : ℚ) ≤ x) : (roundEven x : ℚ) ≤ 2 * x - n := by
  have hn : (n : ℚ) ≤ ⌊x⌋₊ := Nat.cast_le.2 (Nat.le_floor h)
  have hfloor : (⌊x⌋₊ : ℚ) ≤ x := Nat.floor_le ((Nat.cast_nonneg n).trans h)
  by_cases hhalf : x < ⌊x⌋₊ + 1 / 2
  · rw [roundEven, if_pos hhalf]
    linarith
  · have hle : (roundEven x : ℚ) ≤ ⌊x⌋₊ + 1 := by exact_mod_cast roundEven_le x
    linarith

theorem roundEven_pos {x : ℚ} (h : 1 / 2 < x) : 0 < roundEven x := by
  rcases Nat.eq_zero_or_pos ⌊x⌋₊ with hfloor | hfloor
  · rw [roundEven, hfloor, Nat.cast_zero, zero_add, if_neg (not_lt.2 h.le), if_pos h]
    exact one_pos
  · exact hfloor.trans_le (floor_le_roundEven x)

theorem rounded_le_of_multiple {n : ℕ} {x : ℚ} (h : (n : ℚ) * 2 ^ exponent x ≤ x) :
    rounded x ≤ 2 * x - n * 2 ^ exponent x := by
  have hpow := two_zpow_pos (exponent x)
  have hmantissa : (mantissa x : ℚ) ≤ 2 * (x / 2 ^ exponent x) - n := roundEven_le_reflect ((le_div_iff₀ hpow).2 h)
  calc rounded x ≤ mantissa x * 2 ^ exponent x := min_le_right ..
    _ ≤ (2 * (x / 2 ^ exponent x) - n) * 2 ^ exponent x := mul_le_mul_of_nonneg_right hmantissa hpow.le
    _ = 2 * x - n * 2 ^ exponent x := by rw [sub_mul, mul_assoc, div_mul_cancel₀ _ hpow.ne']

/-- **Rounding goes no further up than any number lies below.** -/
theorem rounded_le_reflect {x y : ℚ} (hx : rounded x = x) (h : x ≤ y) : rounded y ≤ 2 * y - x := by
  rcases (exponent_mono h).lt_or_eq with hlt | heq
  · -- a number of a lesser size is less than the least multiple of the size of `y`
    have hnormal : (2 : ℚ) ^ (exponent y + 23) ≤ y :=
      (exponent_cases y).resolve_left (by have := le_exponent x; omega)
    have hpow : ((2 ^ 23 : ℕ) : ℚ) * 2 ^ exponent y = 2 ^ (exponent y + 23) := by
      rw [add_comm, two_zpow_add]
      norm_num
    have hreflect := rounded_le_of_multiple (hpow ▸ hnormal)
    have hless : x ≤ 2 ^ (exponent y + 23) :=
      (lt_two_zpow_exponent x).le.trans (two_zpow_le_two_zpow (by omega))
    rw [hpow] at hreflect
    linarith
  · rcases (rounded_le x).lt_or_eq with hlt | hmax
    · have hself : (mantissa x : ℚ) * 2 ^ exponent x = x := by
        rcases min_choice ((2 : ℚ) ^ 128) (mantissa x * 2 ^ exponent x) with hchoice | hchoice
        · exact absurd hchoice hlt.ne
        · exact hchoice.symm.trans hx
      rw [heq] at hself
      rw [← hself] at h ⊢
      exact rounded_le_of_multiple h
    · have hle := rounded_le y
      linarith

theorem rounded_le_two_mul {x : ℚ} (hx : 0 ≤ x) : rounded x ≤ 2 * x := by
  simpa using rounded_le_reflect rounded_zero hx

/-- What is rounded to 0 is at most half the least number, `2 ^ -149`. -/
theorem rounded_pos_iff {x : ℚ} : 0 < rounded x ↔ 2 ^ (-150 : ℤ) < x := by
  have hleast : (2 : ℚ) ^ (-150 : ℤ) = 1 / 2 * 2 ^ (-149 : ℤ) := by norm_num
  constructor
  · intro h
    by_contra hle
    have hexponent : exponent x = -149 := by
      refine exponent_eq_iff.2 ⟨le_rfl, (not_lt.1 hle).trans_lt ?_, .inl rfl⟩
      norm_num
    have hhalf : x / 2 ^ (-149 : ℤ) ≤ 1 / 2 := (div_le_iff₀ (two_zpow_pos _)).2 (hleast ▸ not_lt.1 hle)
    have hmantissa : mantissa x = 0 := by
      rw [mantissa, hexponent]
      exact Nat.le_zero.1 ((roundEven_mono hhalf).trans (by decide +kernel))
    rw [rounded, hmantissa, Nat.cast_zero, zero_mul] at h
    exact absurd h (not_lt.2 (min_le_right _ _))
  · intro h
    have hmantissa : 0 < mantissa x := by
      rcases le_mantissa x with hexponent | hnormal
      · rw [mantissa, hexponent]
        exact roundEven_pos ((lt_div_iff₀ (two_zpow_pos _)).2 (hleast ▸ h))
      · exact (Nat.two_pow_pos 23).trans_le hnormal
    exact lt_min (by positivity) (mul_pos (Nat.cast_pos.2 hmantissa) (two_zpow_pos _))

/-! ## numbers -/

/-- The rational number that a number in single precision is, and 0 for what is no number. -/
def toRat (a : Float32) : ℚ := (number? a).getD 0

theorem IsNumber.toRat_eq {a : Float32} {x : ℚ} (ha : IsNumber a x) : toRat a = x := by
  rw [toRat, ha.eq]
  rfl

theorem isNumber_toRat {a : Float32} (ha : Scalar.ofNat 0 ≤ a) : IsNumber a (toRat a) := by
  obtain ⟨x, hx⟩ := zero_le_iff.1 ha
  exact hx.toRat_eq ▸ hx

theorem isNumber_zero : IsNumber (Scalar.ofNat 0) 0 := by
  have h := isNumber_ofNat 0
  rwa [Nat.cast_zero, rounded_zero] at h

theorem one_le_rounded {n : ℕ} (hn : 1 ≤ n) : 1 ≤ rounded n := by
  rw [← isNumber_one.rounded_eq]
  exact rounded_le_rounded (by exact_mod_cast hn)

/-- A number below 1 lies at least `2 ^ -24` below it. -/
theorem IsNumber.le_one_sub {a : Float32} {x : ℚ} (ha : IsNumber a x) (h : x < 1) : x ≤ 1 - 2 ^ (-24 : ℤ) := by
  have hholds := ha.holds
  generalize a.toModel.unpack = f at hholds
  cases hholds with
  | zero s => norm_num
  | @finite m e hm hc he =>
    by_contra hgt
    have hexponent : e = -24 := by
      refine hc.exponent_eq.symm.trans (exponent_eq_iff.2 ⟨by omega, ?_, .inr ?_⟩) <;> norm_num at hgt ⊢ <;> linarith
    subst hexponent
    have hmantissa : (m : ℚ) ≤ 2 ^ 24 - 1 := by
      have hlt : m + 1 ≤ 2 ^ 24 := hc.lt
      have hlt : (m : ℚ) + 1 ≤ 2 ^ 24 := by exact_mod_cast hlt
      linarith
    refine hgt ?_
    calc (m : ℚ) * 2 ^ (-24 : ℤ) ≤ (2 ^ 24 - 1) * 2 ^ (-24 : ℤ) := mul_le_mul_of_nonneg_right hmantissa (two_zpow_pos _).le
      _ = 1 - 2 ^ (-24 : ℤ) := by norm_num
  | infinity => norm_num at h

/-! ## sums -/

/-- A sum of a number and further ones that is rounded after each summand. -/
def summed (x : ℚ) (l : List ℚ) : ℚ := l.foldl (fun x y => rounded (x + y)) x

section Sums

variable {a : Float32} {x : ℚ} {as : List Float32} {xs : List ℚ}

theorem isNumber_foldl_add (ha : IsNumber a x) (h : List.Forall₂ IsNumber as xs) :
    IsNumber (as.foldl (· + ·) a) (summed x xs) := by
  induction h generalizing a x with
  | nil => exact ha
  | cons hb _ ih => exact ih (ha.add hb)

theorem isNumber_emptySum : IsNumber Scalar.emptySum 0 := ⟨rfl, le_rfl⟩

theorem isNumber_sum (h : List.Forall₂ IsNumber as xs) : IsNumber (Scalar.sum as) (summed 0 xs) :=
  isNumber_foldl_add isNumber_emptySum h

theorem le_summed (ha : IsNumber a x) (h : List.Forall₂ IsNumber as xs) : x ≤ summed x xs ∧ ∀ y ∈ xs, y ≤ summed x xs := by
  induction h generalizing a x with
  | nil => exact ⟨le_rfl, List.forall_mem_nil _⟩
  | @cons b y as xs hb _ ih =>
    obtain ⟨hstart, hrest⟩ := ih (ha.add hb)
    have hx : x ≤ rounded (x + y) := ha.rounded_eq.symm.le.trans (rounded_le_rounded (le_add_of_nonneg_right hb.nonneg))
    have hy : y ≤ rounded (x + y) := hb.rounded_eq.symm.le.trans (rounded_le_rounded (le_add_of_nonneg_left ha.nonneg))
    exact ⟨hx.trans hstart, List.forall_mem_cons.2 ⟨hy.trans hstart, hrest⟩⟩

/-- **A sum goes no further up than twice its summands.** The induction is on the summands; what the sum has come to is a
number, so that rounding adds no more to it than the next summand once more. -/
theorem summed_le (ha : IsNumber a x) (h : List.Forall₂ IsNumber as xs) : summed x xs ≤ x + 2 * xs.sum := by
  induction h generalizing a x with
  | nil => simp [summed]
  | @cons b y as xs hb _ ih =>
    have hround : rounded (x + y) ≤ 2 * (x + y) - x := rounded_le_reflect ha.rounded_eq (le_add_of_nonneg_right hb.nonneg)
    have hrest : summed (rounded (x + y)) xs ≤ rounded (x + y) + 2 * xs.sum := ih (ha.add hb)
    rw [List.sum_cons]
    calc summed x (y :: xs) = summed (rounded (x + y)) xs := rfl
      _ ≤ rounded (x + y) + 2 * xs.sum := hrest
      _ ≤ x + 2 * (y + xs.sum) := by linarith

end Sums

end ContentSearch.Single
