import ContentSearch.Proofs.Number.Unpacked

/-!
# Operations in single precision

Every number in single precision is a rational number, and infinity may count as `2 ^ 128`, the first one that is too large
(`value?`).  Then numbers are compared as the rational numbers that they are (`compare_eq`), and an operation on numbers
that are not negative, with what is infinite left out where it makes a difference, rounds the exact result.
-/

namespace ContentSearch.Single

open Float.Model Float.Model.UnpackedFloat

/-! ## values -/

/-- The rational number that an unpacked number is, if it is one. -/
def value? : UnpackedFloat → Option ℚ
  | .notANumber => none
  | .infinity .positive => some (2 ^ 128)
  | .infinity .negative => some (-2 ^ 128)
  | .zero _ => some 0
  | .finite .positive m e _ => some (m * 2 ^ e)
  | .finite .negative m e _ => some (-(m * 2 ^ e))

/-- An unpacked number is one of single precision. -/
def Proper : UnpackedFloat → Prop
  | .finite _ m e _ => Canonical m e ∧ e ≤ 104
  | _ => True

theorem proper_unpack (b : BitVec 32) : Proper (unpack Format.binary32 b) := by
  cases h : unpack Format.binary32 b with
  | finite s m e hm => exact canonical_of_unpack h
  | _ => trivial

namespace Canonical

variable {m n : ℕ} {e d : ℤ}

theorem lt_two_zpow (h : Canonical m e) : (m : ℚ) * 2 ^ e < 2 ^ (24 + e) := by
  rw [two_zpow_add, mul_lt_mul_iff_left₀ (two_zpow_pos e)]
  exact_mod_cast h.lt

theorem lt_max (h : Canonical m e) (he : e ≤ 104) : (m : ℚ) * 2 ^ e < 2 ^ 128 :=
  h.lt_two_zpow.trans_le (two_zpow_le_two_zpow (by omega : 24 + e ≤ 128))

theorem bounds (h : Canonical m e) (hm : 0 < m) (he : e ≤ 104) :
    0 < (m : ℚ) * 2 ^ e ∧ (m : ℚ) * 2 ^ e < 2 ^ 128 :=
  ⟨mul_pos (Nat.cast_pos.2 hm) (two_zpow_pos e), h.lt_max he⟩

theorem max_le (h : Canonical m e) (he : 105 ≤ e) : (2 : ℚ) ^ 128 ≤ m * 2 ^ e := by
  have hm : (2 : ℚ) ^ (23 : ℤ) ≤ m := by exact_mod_cast h.normal.resolve_left (by omega)
  calc (2 : ℚ) ^ 128 = 2 ^ (23 : ℤ) * 2 ^ (105 : ℤ) := by norm_num
    _ ≤ m * 2 ^ e := mul_le_mul hm (two_zpow_le_two_zpow he) (two_zpow_pos _).le (Nat.cast_nonneg m)

theorem exponent_eq (h : Canonical m e) : exponent ((m : ℚ) * 2 ^ e) = e := by
  refine exponent_eq_iff.2 ⟨h.le, ?_, h.normal.imp_right fun hm => ?_⟩
  · rw [add_comm]
    exact h.lt_two_zpow
  · rw [add_comm, two_zpow_add, mul_le_mul_iff_left₀ (two_zpow_pos e)]
    exact_mod_cast hm

theorem rounds (h : Canonical m e) (s : Sign) (hm : 0 < m) : Rounds s (m * 2 ^ e) (.finite s m e hm) :=
  .finite h (mantissa_mul_exponent h.exponent_eq.le).symm

theorem lt_of_lt (hm : Canonical m e) (hn : Canonical n d) (h : e < d) : (m : ℚ) * 2 ^ e < n * 2 ^ d := by
  have hle := hm.le
  have hpow : (2 : ℚ) ^ (23 : ℤ) ≤ n := by exact_mod_cast hn.normal.resolve_left (by omega)
  calc (m : ℚ) * 2 ^ e < 2 ^ (24 + e) := hm.lt_two_zpow
    _ ≤ 2 ^ (23 + d) := two_zpow_le_two_zpow (by omega)
    _ = 2 ^ (23 : ℤ) * 2 ^ d := two_zpow_add ..
    _ ≤ n * 2 ^ d := mul_le_mul_of_nonneg_right hpow (two_zpow_pos d).le

/-- Numbers are compared by their exponents first. -/
theorem compare_eq (hm : Canonical m e) (hn : Canonical n d) :
    (compare e d).then (compare m n) = compare ((m : ℚ) * 2 ^ e) (n * 2 ^ d) := by
  rcases lt_trichotomy e d with h | rfl | h
  · rw [Int.compare_eq_lt.2 h, compare_lt_iff_lt.2 (hm.lt_of_lt hn h)]
    rfl
  · rw [Int.compare_eq_eq.2 rfl, Ordering.then]
    rcases lt_trichotomy m n with h | rfl | h
    · rw [Nat.compare_eq_lt.2 h, compare_lt_iff_lt.2]
      exact mul_lt_mul_of_pos_right (Nat.cast_lt.2 h) (two_zpow_pos e)
    · rw [Nat.compare_eq_eq.2 rfl, compare_eq_iff_eq.2 rfl]
    · rw [Nat.compare_eq_gt.2 h, compare_gt_iff_gt.2]
      exact mul_lt_mul_of_pos_right (Nat.cast_lt.2 h) (two_zpow_pos e)
  · rw [Int.compare_eq_gt.2 h, compare_gt_iff_gt.2 (hn.lt_of_lt hm h)]
    rfl

end Canonical

/-! ## order -/

theorem some_lt {x y : ℚ} (h : x < y) : some Ordering.lt = some (compare x y) := congrArg some (compare_lt_iff_lt.2 h).symm

theorem some_gt {x y : ℚ} (h : y < x) : some Ordering.gt = some (compare x y) := congrArg some (compare_gt_iff_gt.2 h).symm

theorem some_eq (x : ℚ) : some Ordering.eq = some (compare x x) := congrArg some (compare_eq_iff_eq.2 rfl).symm

theorem swap_compare (x y : ℚ) : (compare x y).swap = compare (-x) (-y) := by
  rcases lt_trichotomy x y with h | rfl | h
  · rw [compare_lt_iff_lt.2 h, compare_gt_iff_gt.2 (neg_lt_neg h)]
    rfl
  · rw [compare_eq_iff_eq.2 rfl, compare_eq_iff_eq.2 rfl]
    rfl
  · rw [compare_gt_iff_gt.2 h, compare_lt_iff_lt.2 (neg_lt_neg h)]
    rfl

/-- **Numbers are compared as rational numbers.** -/
theorem compare_eq {f g : UnpackedFloat} (hf : Proper f) (hg : Proper g) :
    f.compare g = (value? f).bind fun x => (value? g).map fun y => compare x y := by
  have hmax : (0 : ℚ) < 2 ^ 128 := by positivity
  cases f with
  | notANumber => rfl
  | infinity s =>
    cases g with
    | notANumber => cases s <;> rfl
    | infinity t =>
      cases s <;> cases t
      · exact some_eq _
      · exact some_lt (by linarith)
      · exact some_gt (by linarith)
      · exact some_eq _
    | zero t =>
      cases s
      · exact some_lt (by linarith)
      · exact some_gt hmax
    | finite t n d hn =>
      obtain ⟨h₀, h₁⟩ := hg.1.bounds hn hg.2
      cases s <;> cases t
      · exact some_lt (by linarith)
      · exact some_lt (by linarith)
      · exact some_gt (by linarith)
      · exact some_gt h₁
  | zero s =>
    cases g with
    | notANumber => rfl
    | infinity t =>
      cases t
      · exact some_gt (by linarith)
      · exact some_lt hmax
    | zero t => exact some_eq _
    | finite t n d hn =>
      obtain ⟨h₀, -⟩ := hg.1.bounds hn hg.2
      cases t
      · exact some_gt (by linarith)
      · exact some_lt h₀
  | finite s m e hm =>
    obtain ⟨h₀, h₁⟩ := hf.1.bounds hm hf.2
    cases g with
    | notANumber => cases s <;> rfl
    | infinity t =>
      cases s <;> cases t
      · exact some_gt (by linarith)
      · exact some_lt (by linarith)
      · exact some_gt (by linarith)
      · exact some_lt h₁
    | zero t =>
      cases s
      · exact some_lt (by linarith)
      · exact some_gt h₀
    | finite t n d hn =>
      obtain ⟨h₀', -⟩ := hg.1.bounds hn hg.2
      cases s <;> cases t
      · -- the order of negative numbers is that of their opposites, the other way round
        show some ((compare e d).then (compare m n)).swap = some (compare (-((m : ℚ) * 2 ^ e)) (-((n : ℚ) * 2 ^ d)))
        rw [hf.1.compare_eq hg.1, swap_compare]
      · exact some_lt (by linarith)
      · exact some_gt (by linarith)
      · exact congrArg some (hf.1.compare_eq hg.1)

theorem le_iff {f g : UnpackedFloat} (hf : Proper f) (hg : Proper g) :
    f.le g = true ↔ ∃ x y, value? f = some x ∧ value? g = some y ∧ x ≤ y := by
  rw [UnpackedFloat.le, compare_eq hf hg]
  cases value? f <;> cases value? g <;> simp [Ordering.isLE_iff_ne_gt, compare_le_iff_le]

theorem lt_iff {f g : UnpackedFloat} (hf : Proper f) (hg : Proper g) :
    f.lt g = true ↔ ∃ x y, value? f = some x ∧ value? g = some y ∧ x < y := by
  rw [UnpackedFloat.lt, compare_eq hf hg]
  cases value? f <;> cases value? g <;> simp [compare_lt_iff_lt]

theorem beq_iff {f g : UnpackedFloat} (hf : Proper f) (hg : Proper g) :
    f.beq g = true ↔ ∃ x y, value? f = some x ∧ value? g = some y ∧ x = y := by
  rw [UnpackedFloat.beq, compare_eq hf hg]
  cases value? f <;> cases value? g <;> simp
  exact eq_comm

theorem isFinite_iff {f : UnpackedFloat} (hf : Proper f) :
    f.isFinite = true ↔ ∃ x, value? f = some x ∧ -2 ^ 128 < x ∧ x < 2 ^ 128 := by
  have hmax : (0 : ℚ) < 2 ^ 128 := by positivity
  cases f with
  | notANumber => simp [UnpackedFloat.isFinite, value?]
  | infinity s => cases s <;> simp [UnpackedFloat.isFinite, value?]
  | zero s => exact ⟨fun _ => ⟨0, rfl, by linarith, hmax⟩, fun _ => rfl⟩
  | finite s m e hm =>
    obtain ⟨h₀, h₁⟩ := hf.1.bounds hm hf.2
    refine ⟨fun _ => ?_, fun _ => rfl⟩
    cases s
    · exact ⟨_, rfl, by linarith, by linarith⟩
    · exact ⟨_, rfl, by linarith, h₁⟩

/-! ## numbers that are not negative -/

/-- An unpacked number is a number that is not negative. -/
inductive Holds : UnpackedFloat → ℚ → Prop
  | zero (s : Sign) : Holds (.zero s) 0
  | finite {m : ℕ} {e : ℤ} (hm : 0 < m) : Canonical m e → e ≤ 104 → Holds (.finite .positive m e hm) (m * 2 ^ e)
  | infinity : Holds (.infinity .positive) (2 ^ 128)

theorem Holds.nonneg {f : UnpackedFloat} {x : ℚ} (h : Holds f x) : 0 ≤ x := by
  cases h with
  | zero s => exact le_rfl
  | finite hm hc he => exact (hc.bounds hm he).1.le
  | infinity => positivity

theorem holds_of_value? {f : UnpackedFloat} (hf : Proper f) {x : ℚ} (h : value? f = some x) (hx : 0 ≤ x) : Holds f x := by
  have hmax : (0 : ℚ) < 2 ^ 128 := by positivity
  cases f with
  | notANumber => cases h
  | infinity s =>
    cases s
    · cases h
      linarith
    · cases h
      exact .infinity
  | zero s =>
    cases h
    exact .zero s
  | finite s m e hm =>
    obtain ⟨h₀, -⟩ := hf.1.bounds hm hf.2
    cases s
    · cases h
      linarith
    · cases h
      exact .finite hm hf.1 hf.2

/-! ## packing -/

/-- What becomes of a result when it is packed into 32 bits. -/
def stored (f : UnpackedFloat) : UnpackedFloat := unpack Format.binary32 (pack Format.binary32 f)

theorem stored_zero (s : Sign) : stored (.zero s) = .zero s := by cases s <;> rfl

theorem stored_notANumber : stored .notANumber = .notANumber := rfl

/-- **A result that is not negative is the exact one rounded.** -/
theorem Rounds.value_eq {x : ℚ} {f : UnpackedFloat} (h : Rounds .positive x f) : value? (stored f) = some (rounded x) := by
  cases h with
  | zero hzero =>
    rw [stored_zero, rounded, hzero, Nat.cast_zero, zero_mul, min_eq_right (by positivity)]
    rfl
  | @finite m e hm hc hvalue =>
    rw [stored, unpack_pack_finite hm hc, rounded, ← hvalue]
    split
    · next he =>
      rw [min_eq_left (hc.max_le he)]
      rfl
    · next he =>
      rw [min_eq_right (hc.lt_max (by omega)).le]
      rfl

theorem rounded_zero : rounded 0 = 0 := by
  rw [rounded, mantissa_zero, Nat.cast_zero, zero_mul, min_eq_right (by positivity)]

theorem rounded_nonneg {x : ℚ} (h : 0 ≤ x) : 0 ≤ rounded x := by
  rw [← rounded_zero]
  exact rounded_le_rounded h

theorem rounded_of_canonical {m : ℕ} {e : ℤ} (h : Canonical m e) :
    rounded ((m : ℚ) * 2 ^ e) = min (2 ^ 128) ((m : ℚ) * 2 ^ e) := by
  rw [rounded, mantissa_mul_exponent h.exponent_eq.le]

theorem rounded_two_zpow {t : ℤ} (h : -126 ≤ t) (h' : t ≤ 128) : rounded (2 ^ t) = 2 ^ t := by
  have hc : Canonical (2 ^ 23) (t - 23) := ⟨Nat.pow_lt_pow_right one_lt_two (by omega), by omega, .inr le_rfl⟩
  have hpow : (2 : ℚ) ^ t = (2 ^ 23 : ℕ) * 2 ^ (t - 23) := by
    rw [Nat.cast_pow, Nat.cast_ofNat, ← zpow_natCast, ← two_zpow_add]
    congr 1
    omega
  have hmax : (2 : ℚ) ^ t ≤ 2 ^ 128 := two_zpow_le_two_zpow h'
  rw [hpow, rounded_of_canonical hc, ← hpow, min_eq_right hmax]

/-- What is too large becomes infinite. -/
theorem rounded_of_max_le {x : ℚ} (h : 2 ^ 128 ≤ x) : rounded x = 2 ^ 128 := by
  refine le_antisymm (rounded_le x) ?_
  calc (2 : ℚ) ^ 128 = rounded (2 ^ 128) := (rounded_two_zpow (t := 128) (by omega) le_rfl).symm
    _ ≤ rounded x := rounded_le_rounded h

theorem Holds.rounded_eq {f : UnpackedFloat} {x : ℚ} (h : Holds f x) : rounded x = x := by
  cases h with
  | zero s => exact rounded_zero
  | finite hm hc he => rw [rounded_of_canonical hc, min_eq_right (hc.lt_max he).le]
  | infinity => exact rounded_of_max_le le_rfl

theorem Holds.stored_eq {f : UnpackedFloat} {x : ℚ} (h : Holds f x) : value? (stored f) = some x := by
  cases h with
  | zero s =>
    rw [stored_zero]
    rfl
  | finite hm hc he =>
    rw [(hc.rounds .positive hm).value_eq, (Holds.finite hm hc he).rounded_eq]
  | infinity => rfl

/-! ## operations -/

variable {f g : UnpackedFloat} {x y : ℚ}

theorem decreaseExponent_mul (m : ℕ) {e t : ℤ} (h : t ≤ e) :
    (((decreaseExponent m e t).1 : ℕ) : ℚ) * 2 ^ t = m * 2 ^ e := by
  obtain ⟨k, rfl⟩ := Int.le.dest h
  have hshift : (t + k - t).toNat = k := by omega
  rw [decreaseExponent, hshift, Nat.shiftLeft_eq, two_zpow_add, zpow_natCast]
  push_cast
  ring

theorem add_eq (hf : Holds f x) (hg : Holds g y) :
    value? (stored (UnpackedFloat.add Format.binary32 f g)) = some (rounded (x + y)) := by
  cases hf with
  | zero s =>
    rw [zero_add, hg.rounded_eq]
    cases hg with
    | zero t => cases s <;> cases t <;> rfl
    | finite hn hd hd' => exact (Holds.finite hn hd hd').stored_eq
    | infinity => exact Holds.infinity.stored_eq
  | @finite m e hm hc he =>
    cases hg with
    | zero t =>
      rw [add_zero, (Holds.finite hm hc he).rounded_eq]
      exact (Holds.finite hm hc he).stored_eq
    | @finite n d hn hd hd' =>
      have hrounds := rounds_normalize (Int.natCast_nonneg _ : 0 ≤ (((decreaseExponent m e (min e d)).1 +
        (decreaseExponent n d (min e d)).1 : ℕ) : ℤ)) (min e d) .positive
      rw [Int.cast_natCast, Nat.cast_add, add_mul, decreaseExponent_mul m (min_le_left e d),
        decreaseExponent_mul n (min_le_right e d)] at hrounds
      exact hrounds.value_eq
    | infinity =>
      rw [rounded_of_max_le (le_add_of_nonneg_left (Holds.finite hm hc he).nonneg)]
      exact Holds.infinity.stored_eq
  | infinity =>
    rw [rounded_of_max_le (le_add_of_nonneg_right hg.nonneg)]
    cases hg <;> exact Holds.infinity.stored_eq

theorem sub_eq (hf : Holds f x) (hg : Holds g y) (hxy : x ≤ y) (hy : y < 2 ^ 128) :
    value? (stored (UnpackedFloat.sub Format.binary32 g f)) = some (rounded (y - x)) := by
  cases hf with
  | zero s =>
    rw [sub_zero, hg.rounded_eq]
    cases hg with
    | zero t => cases s <;> cases t <;> rfl
    | finite hn hd hd' => exact (Holds.finite hn hd hd').stored_eq
    | infinity => exact Holds.infinity.stored_eq
  | @finite m e hm hc he =>
    obtain ⟨h₀, -⟩ := hc.bounds hm he
    cases hg with
    | zero t => exact absurd hxy (not_le.2 h₀)
    | @finite n d hn hd hd' =>
      have hx := decreaseExponent_mul m (min_le_left e d)
      have hy := decreaseExponent_mul n (min_le_right e d)
      have hle : (decreaseExponent m e (min e d)).1 ≤ (decreaseExponent n d (min e d)).1 := by
        rw [← hx, ← hy, mul_le_mul_iff_left₀ (two_zpow_pos _)] at hxy
        exact_mod_cast hxy
      have hrounds := rounds_normalize (sub_nonneg.2 (Nat.cast_le.2 hle)) (min e d) .positive
      rw [Int.cast_sub, Int.cast_natCast, Int.cast_natCast, sub_mul, hx, hy] at hrounds
      rw [UnpackedFloat.sub, min_comm]
      exact hrounds.value_eq
    | infinity => exact absurd hy (lt_irrefl _)
  | infinity => exact absurd hxy (not_le.2 hy)

theorem le_exponent_mul {m : ℕ} (hm : 2 ^ 23 ≤ m) (e : ℤ) : e ≤ exponent (m * 2 ^ e) := by
  have hpow : (2 : ℚ) ^ (23 + e) ≤ m * 2 ^ e := by
    rw [two_zpow_add, mul_le_mul_iff_left₀ (two_zpow_pos e)]
    exact_mod_cast hm
  have hlt := lt_of_two_zpow_lt (hpow.trans_lt (lt_two_zpow_exponent _))
  omega

theorem mul_eq (hf : Holds f x) (hg : Holds g y) (hx : x < 2 ^ 128) (hy : y < 2 ^ 128) :
    value? (stored (UnpackedFloat.mul Format.binary32 f g)) = some (rounded (x * y)) := by
  cases hf with
  | zero s =>
    rw [zero_mul, rounded_zero]
    cases hg with
    | zero t => exact (Holds.zero (s * t)).stored_eq
    | finite => exact (Holds.zero (s * Sign.positive)).stored_eq
    | infinity => exact absurd hy (lt_irrefl _)
  | @finite m e hm hc he =>
    cases hg with
    | zero t =>
      rw [mul_zero, rounded_zero]
      exact (Holds.zero (Sign.positive * t)).stored_eq
    | @finite n d hn hd hd' =>
      have hproduct : (m : ℚ) * 2 ^ e * (n * 2 ^ d) = (m * n : ℕ) * 2 ^ (e + d) := by
        rw [two_zpow_add]
        push_cast
        ring
      have hexponent : e + d ≤ exponent ((m * n : ℕ) * 2 ^ (e + d)) := by
        by_cases hlong : 2 ^ 23 ≤ m * n
        · exact le_exponent_mul hlong _
        · -- neither factor is long, so both have the least exponent
          have hm' : ¬ 2 ^ 23 ≤ m := fun h => hlong (h.trans (Nat.le_mul_of_pos_right m hn))
          have hn' : ¬ 2 ^ 23 ≤ n := fun h => hlong (h.trans (Nat.le_mul_of_pos_left n hm))
          have hleast := le_exponent ((m * n : ℕ) * 2 ^ (e + d))
          rw [hc.normal.resolve_right hm', hd.normal.resolve_right hn'] at hleast ⊢
          omega
      rw [hproduct]
      exact (rounds_roundWithAccuracy (Stands.exact (m * n)) hexponent .positive).value_eq
    | infinity => exact absurd hy (lt_irrefl _)
  | infinity => exact absurd hx (lt_irrefl _)

theorem mul_infinity_eq (hf : Holds f x) (hx : 0 < x) :
    value? (stored (UnpackedFloat.mul Format.binary32 f (.infinity .positive))) = some (2 ^ 128) := by
  cases hf with
  | zero s => exact absurd hx (lt_irrefl _)
  | finite => exact Holds.infinity.stored_eq
  | infinity => exact Holds.infinity.stored_eq

theorem infinity_mul_eq (hf : Holds f x) (hx : 0 < x) :
    value? (stored (UnpackedFloat.mul Format.binary32 (.infinity .positive) f)) = some (2 ^ 128) := by
  cases hf with
  | zero s => exact absurd hx (lt_irrefl _)
  | finite => exact Holds.infinity.stored_eq
  | infinity => exact Holds.infinity.stored_eq

theorem two_zpow_lt_div {m n : ℕ} (hm : 0 < m) (hn : 0 < n) (e d : ℤ) :
    (2 : ℚ) ^ ((m.log2 : ℤ) + e - (n.log2 + 1 + d)) < m * 2 ^ e / (n * 2 ^ d) := by
  have hnumerator : (2 : ℚ) ^ ((m.log2 : ℤ) + e) ≤ m * 2 ^ e := two_zpow_log2_le hm.ne' e
  have hdenominator : (n : ℚ) * 2 ^ d < 2 ^ ((n.log2 : ℤ) + 1 + d) := lt_two_zpow_log2 n d
  have hpos : (0 : ℚ) < n * 2 ^ d := mul_pos (Nat.cast_pos.2 hn) (two_zpow_pos d)
  rw [lt_div_iff₀ hpos]
  calc (2 : ℚ) ^ ((m.log2 : ℤ) + e - (n.log2 + 1 + d)) * (n * 2 ^ d)
      < 2 ^ ((m.log2 : ℤ) + e - (n.log2 + 1 + d)) * 2 ^ ((n.log2 : ℤ) + 1 + d) :=
        mul_lt_mul_of_pos_left hdenominator (two_zpow_pos _)
    _ = 2 ^ ((m.log2 : ℤ) + e) := by rw [← two_zpow_add, sub_add_cancel]
    _ ≤ m * 2 ^ e := hnumerator

/-- The quotient of two mantissas is computed to an exponent that is small enough. -/
theorem rounds_divCore {m n : ℕ} (hm : 0 < m) (hn : 0 < n) (e d : ℤ) :
    Rounds .positive ((m : ℚ) * 2 ^ e / (n * 2 ^ d)) (roundWithAccuracy Format.binary32 .positive
      (divCore Format.binary32 m e n d).1 (divCore Format.binary32 m e n d).2.1 (divCore Format.binary32 m e n d).2.2) := by
  obtain ⟨t, ht⟩ : ∃ t, min (e - d) (Format.binary32.targetExponent (totalExponent m e - totalExponent n d)) = t := ⟨_, rfl⟩
  obtain ⟨k, hk⟩ : ∃ k : ℕ, e - d = t + k := Int.le.dest (by omega : t ≤ e - d) |>.imp fun _ => Eq.symm
  have hshift : (e - d - t).toNat = k := by omega
  have hdivCore : divCore Format.binary32 m e n d =
      ((m <<< k) / n, t, accuracyOfFraction ((m <<< k) % n) n) := by
    rw [divCore, ht, hshift]
  have hn' : (n : ℚ) ≠ 0 := Nat.cast_ne_zero.2 hn.ne'
  have hquotient : (((m <<< k) / n : ℕ) : ℚ) + ((m <<< k) % n : ℕ) / n = (m : ℚ) * 2 ^ k / n := by
    have hdivision : (n : ℚ) * ((m <<< k) / n : ℕ) + ((m <<< k) % n : ℕ) = m * 2 ^ k := by
      have h := Nat.div_add_mod (m <<< k) n
      rw [Nat.shiftLeft_eq] at h ⊢
      exact_mod_cast h
    rw [eq_div_iff hn', add_mul, div_mul_cancel₀ _ hn', mul_comm, hdivision]
  have hvalue : (m : ℚ) * 2 ^ k / n * 2 ^ t = m * 2 ^ e / (n * 2 ^ d) := by
    have he : e = d + (t + k) := by omega
    rw [div_mul_eq_mul_div, div_eq_div_iff hn' (mul_ne_zero hn' (two_zpow_pos d).ne'), he, two_zpow_add, two_zpow_add,
      zpow_natCast]
    ring
  have hexponent : t ≤ exponent ((m : ℚ) * 2 ^ e / (n * 2 ^ d)) := by
    have hlt := lt_of_two_zpow_lt ((two_zpow_lt_div hm hn e d).trans (lt_two_zpow_exponent _))
    have hleast := le_exponent ((m : ℚ) * 2 ^ e / (n * 2 ^ d))
    rw [targetExponent_eq, totalExponent, totalExponent] at ht
    omega
  have hstands := Stands.fraction ((m <<< k) / n) (Nat.mod_lt (m <<< k) hn)
  rw [hquotient] at hstands
  have hrounds := rounds_roundWithAccuracy hstands (e := t) (by rw [hvalue]; exact hexponent) .positive
  rw [hvalue] at hrounds
  rw [hdivCore]
  exact hrounds

theorem div_eq (hf : Holds f x) (hg : Holds g y) (hx : x < 2 ^ 128) (hy₀ : 0 < y) (hy : y < 2 ^ 128) :
    value? (stored (UnpackedFloat.div Format.binary32 f g)) = some (rounded (x / y)) := by
  cases hg with
  | zero t => exact absurd hy₀ (lt_irrefl _)
  | @finite n d hn hd hd' =>
    cases hf with
    | zero s =>
      rw [zero_div, rounded_zero]
      exact (Holds.zero (s / Sign.positive)).stored_eq
    | @finite m e hm hc he => exact (rounds_divCore hm hn e d).value_eq
    | infinity => exact absurd hx (lt_irrefl _)
  | infinity => exact absurd hy (lt_irrefl _)

theorem infinity_div_eq (hg : Holds g y) (hy₀ : 0 < y) (hy : y < 2 ^ 128) :
    value? (stored (UnpackedFloat.div Format.binary32 (.infinity .positive) g)) = some (2 ^ 128) := by
  cases hg with
  | zero t => exact absurd hy₀ (lt_irrefl _)
  | finite => exact Holds.infinity.stored_eq
  | infinity => exact absurd hy (lt_irrefl _)

theorem div_infinity_eq (hf : Holds f x) (hx : x < 2 ^ 128) :
    value? (stored (UnpackedFloat.div Format.binary32 f (.infinity .positive))) = some 0 := by
  cases hf with
  | zero s => exact (Holds.zero (s / Sign.positive)).stored_eq
  | finite => exact (Holds.zero (Sign.positive / Sign.positive)).stored_eq
  | infinity => exact absurd hx (lt_irrefl _)

/-! ## what is no number -/

theorem Holds.eq_infinity (h : Holds f x) (hx : x = 2 ^ 128) : f = .infinity .positive := by
  cases h with
  | zero s => exact absurd hx (by norm_num)
  | finite hm hc he => exact absurd hx (hc.bounds hm he).2.ne
  | infinity => rfl

theorem Holds.eq_zero (h : Holds f x) (hx : x = 0) : ∃ s, f = .zero s := by
  cases h with
  | zero s => exact ⟨s, rfl⟩
  | finite hm hc he => exact absurd hx (hc.bounds hm he).1.ne'
  | infinity => exact absurd hx (by norm_num)

theorem eq_notANumber (h : value? f = none) : f = .notANumber := by
  rcases f with s | _ | s | ⟨s, m, e, hm⟩
  · cases s <;> cases h
  · rfl
  · cases h
  · cases s <;> cases h

theorem sub_notANumber (f : UnpackedFloat) : UnpackedFloat.sub Format.binary32 f .notANumber = .notANumber := by
  cases f <;> rfl

theorem notANumber_mul (f : UnpackedFloat) : UnpackedFloat.mul Format.binary32 .notANumber f = .notANumber := by
  cases f <;> rfl

theorem mul_notANumber (f : UnpackedFloat) : UnpackedFloat.mul Format.binary32 f .notANumber = .notANumber := by
  cases f <;> rfl

theorem div_notANumber (f : UnpackedFloat) : UnpackedFloat.div Format.binary32 f .notANumber = .notANumber := by
  cases f <;> rfl

/-- A product is not negative, if it is a number. -/
theorem mul_nonneg_of_value? (hf : Holds f x) (hg : Holds g y) {z : ℚ}
    (h : value? (stored (UnpackedFloat.mul Format.binary32 f g)) = some z) : 0 ≤ z := by
  have hmax {z : ℚ} (h : value? (stored (.infinity .positive)) = some z) : 0 ≤ z := by
    rw [Holds.infinity.stored_eq] at h
    exact Option.some.inj h ▸ Holds.infinity.nonneg
  have hnone {z : ℚ} (h : value? (stored .notANumber) = some z) : 0 ≤ z := by
    rw [stored_notANumber] at h
    cases h
  have hfinite (hx : x < 2 ^ 128) (hy : y < 2 ^ 128) : 0 ≤ z := by
    rw [mul_eq hf hg hx hy] at h
    exact Option.some.inj h ▸ rounded_nonneg (mul_nonneg hf.nonneg hg.nonneg)
  cases hf with
  | zero s =>
    cases hg with
    | zero t => exact hfinite (by positivity) (by positivity)
    | finite hn hd hd' => exact hfinite (by positivity) (hd.bounds hn hd').2
    | infinity => exact hnone h
  | finite hm hc he =>
    cases hg with
    | zero t => exact hfinite (hc.bounds hm he).2 (by positivity)
    | finite hn hd hd' => exact hfinite (hc.bounds hm he).2 (hd.bounds hn hd').2
    | infinity => exact hmax h
  | infinity =>
    cases hg with
    | zero t => exact hnone h
    | finite => exact hmax h
    | infinity => exact hmax h

end ContentSearch.Single
