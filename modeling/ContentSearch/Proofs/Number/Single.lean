import ContentSearch.Number.Word
import ContentSearch.Proofs.Number.Laws
import ContentSearch.Proofs.Number.Operations

/-!
# Single precision is lawful

The numbers in single precision are ordered as rational numbers, and sums, differences, products and quotients of numbers
that are not negative are the exact ones rounded (`IsNumber.add` and the like), so that they keep the order because rounding
does.
-/

namespace ContentSearch.Single

open Float.Model Float.Model.UnpackedFloat

/-- The rational number that a number in single precision is, infinity counting as `2 ^ 128`. -/
def number? (a : Float32) : Option ℚ := value? a.toModel.unpack

theorem proper (a : Float32) : Proper a.toModel.unpack := proper_unpack _

section Order

variable {a b : Float32}

theorem float_le_iff : a ≤ b ↔ ∃ x y, number? a = some x ∧ number? b = some y ∧ x ≤ y := by
  show decide (UnpackedFloat.le a.toModel.unpack b.toModel.unpack = true) = true ↔ _
  rw [decide_eq_true_iff, le_iff (proper a) (proper b)]
  rfl

theorem float_lt_iff : a < b ↔ ∃ x y, number? a = some x ∧ number? b = some y ∧ x < y := by
  show decide (UnpackedFloat.lt a.toModel.unpack b.toModel.unpack = true) = true ↔ _
  rw [decide_eq_true_iff, lt_iff (proper a) (proper b)]
  rfl

theorem float_beq_iff : (a == b) = true ↔ ∃ x y, number? a = some x ∧ number? b = some y ∧ x = y :=
  beq_iff (proper a) (proper b)

theorem float_isFinite_iff : a.isFinite = true ↔ ∃ x, number? a = some x ∧ -2 ^ 128 < x ∧ x < 2 ^ 128 :=
  isFinite_iff (proper a)

end Order

/-! ## operations -/

/-- A number in single precision is a number that is not negative. -/
structure IsNumber (a : Float32) (x : ℚ) : Prop where
  eq : number? a = some x
  nonneg : 0 ≤ x

namespace IsNumber

variable {a b c : Float32} {x y z : ℚ}

theorem holds (ha : IsNumber a x) : Holds a.toModel.unpack x := holds_of_value? (proper a) ha.eq ha.nonneg

theorem rounded_eq (ha : IsNumber a x) : rounded x = x := ha.holds.rounded_eq

theorem le_max (ha : IsNumber a x) : x ≤ 2 ^ 128 := by
  rw [← ha.rounded_eq]
  exact rounded_le x

theorem of_rounded (h : number? a = some (rounded x)) (hx : 0 ≤ x) : IsNumber a (rounded x) := ⟨h, rounded_nonneg hx⟩

theorem add (ha : IsNumber a x) (hb : IsNumber b y) : IsNumber (a + b) (rounded (x + y)) :=
  of_rounded (add_eq ha.holds hb.holds) (add_nonneg ha.nonneg hb.nonneg)

theorem sub (ha : IsNumber a x) (hb : IsNumber b y) (hxy : x ≤ y) (hy : y < 2 ^ 128) :
    IsNumber (b - a) (rounded (y - x)) :=
  of_rounded (sub_eq ha.holds hb.holds hxy hy) (sub_nonneg.2 hxy)

theorem mul (ha : IsNumber a x) (hb : IsNumber b y) (hx : x < 2 ^ 128) (hy : y < 2 ^ 128) :
    IsNumber (a * b) (rounded (x * y)) :=
  of_rounded (mul_eq ha.holds hb.holds hx hy) (mul_nonneg ha.nonneg hb.nonneg)

theorem div (ha : IsNumber a x) (hb : IsNumber b y) (hx : x < 2 ^ 128) (hy₀ : 0 < y) (hy : y < 2 ^ 128) :
    IsNumber (a / b) (rounded (x / y)) :=
  of_rounded (div_eq ha.holds hb.holds hx hy₀ hy) (div_nonneg ha.nonneg hb.nonneg)

end IsNumber

/-! ## natural numbers -/

/-- Natural numbers that are small enough are not changed. -/
theorem rounded_natCast {n : ℕ} (h : n < 2 ^ 24) : rounded n = n := by
  have hexponent : exponent ((n : ℚ) * 2 ^ (0 : ℤ)) ≤ 0 := by
    rw [zpow_zero, mul_one]
    rcases exponent_cases n with hleast | hle
    · omega
    · have hlt : (n : ℚ) < 2 ^ (24 : ℤ) := by exact_mod_cast h
      have hlt := lt_of_two_zpow_lt (hle.trans_lt hlt)
      omega
  have hmantissa := mantissa_mul_exponent hexponent
  rw [zpow_zero, mul_one] at hmantissa
  have hmax : (n : ℚ) ≤ 2 ^ 128 := by
    have hle : n ≤ 2 ^ 128 := h.le.trans (Nat.pow_le_pow_right two_pos (by omega))
    exact_mod_cast hle
  rw [rounded, hmantissa, min_eq_right hmax]

theorem number?_toFloat32 (n : UInt64) : number? n.toFloat32 = some (rounded n.toNat) := by
  have hrounds := rounds_normalize (Int.natCast_nonneg n.toNat) 0 .positive
  rw [zpow_zero, mul_one, Int.cast_natCast] at hrounds
  exact hrounds.value_eq

theorem ofScientific_eq {n : ℕ} (hn : n ≠ 0) : UnpackedFloat.ofScientific Format.binary32 n 0 =
    roundWithAccuracy Format.binary32 .positive ((n <<< 24) * 10 ^ 0) (-24 + 0) .exact := by
  have hleast : ¬ (0 : ℤ) < -((2 ^ Format.binary32.exponentBits : ℤ) + n.log2) := by
    have hpow : (0 : ℤ) < 2 ^ Format.binary32.exponentBits := by positivity
    omega
  rw [UnpackedFloat.ofScientific, dif_neg hn, if_neg (by decide), if_neg hleast, if_pos le_rfl]
  rfl

theorem number?_ofNat (n : ℕ) : number? (Float32.ofNat n) = some (rounded n) := by
  show number? (Float32.ofScientific n false 0) = _
  unfold Float32.ofScientific
  split
  · next h =>
    -- a small number is converted exactly and then multiplied by 1
    have hsmall : n < 2 ^ 24 := h.1.trans (Nat.pow_lt_pow_right one_lt_two (by omega))
    have hconvert : number? n.toUInt64.toFloat32 = some (n : ℚ) := by
      have hword : n.toUInt64.toNat = n := Nat.mod_eq_of_lt (hsmall.trans (by decide))
      rw [number?_toFloat32, hword, rounded_natCast hsmall]
    have hone : number? (Float32.ofBits 0x3F800000) = some 1 := by
      show some (((2 ^ 23 : ℕ) : ℚ) * 2 ^ (-23 : ℤ)) = some 1
      norm_num
    have hlt : (n : ℚ) < 2 ^ 128 := by
      have hlt : n < 2 ^ 128 := hsmall.trans (Nat.pow_lt_pow_right one_lt_two (by omega))
      exact_mod_cast hlt
    have hproduct := IsNumber.mul ⟨hconvert, Nat.cast_nonneg n⟩ ⟨hone, zero_le_one⟩ hlt (by norm_num)
    rw [mul_one] at hproduct
    exact hproduct.eq
  · next h =>
    have hlarge : 2 ^ 23 ≤ n := by
      by_contra hlt
      exact h ⟨not_le.1 hlt, Nat.zero_le _⟩
    have hvalue : (((n <<< 24) * 10 ^ 0 : ℕ) : ℚ) * 2 ^ (-24 + 0 : ℤ) = n := by
      have hpow : (2 : ℚ) ^ (-24 + 0 : ℤ) = (2 ^ 24)⁻¹ := by norm_num
      rw [Nat.shiftLeft_eq, pow_zero, mul_one, Nat.cast_mul, Nat.cast_pow, Nat.cast_ofNat, hpow,
        mul_inv_cancel_right₀ (by positivity)]
    have hexponent : (-24 + 0 : ℤ) ≤ exponent n := by
      have hle : (2 : ℚ) ^ (23 : ℤ) ≤ n := by exact_mod_cast hlarge
      have hlt := lt_of_two_zpow_lt (hle.trans_lt (lt_two_zpow_exponent _))
      omega
    have hrounds := rounds_roundWithAccuracy (Stands.exact ((n <<< 24) * 10 ^ 0)) (e := -24 + 0)
      (by rw [hvalue]; exact hexponent) .positive
    rw [hvalue] at hrounds
    show value? (stored (UnpackedFloat.ofScientific Format.binary32 n 0)) = _
    rw [ofScientific_eq (by omega)]
    exact hrounds.value_eq

/-! ## what operations give -/

section Results

variable {a b c : Float32} {x y z : ℚ}

theorem le_self_iff : a ≤ a ↔ ∃ x, number? a = some x := by
  rw [float_le_iff]
  constructor
  · rintro ⟨x, -, hx, -⟩
    exact ⟨x, hx⟩
  · rintro ⟨x, hx⟩
    exact ⟨x, x, hx, hx, le_rfl⟩

theorem zero_le_iff : (Scalar.ofNat 0 : Float32) ≤ a ↔ ∃ x, IsNumber a x := by
  have hzero : number? (Scalar.ofNat 0) = some 0 := (number?_ofNat 0).trans (congrArg some rounded_zero)
  rw [float_le_iff]
  constructor
  · rintro ⟨x, y, hx, hy, hxy⟩
    obtain rfl : 0 = x := Option.some.inj (hzero.symm.trans hx)
    exact ⟨y, hy, hxy⟩
  · rintro ⟨x, hx⟩
    exact ⟨0, x, hzero, hx.eq, hx.nonneg⟩

theorem zero_lt_iff : (Scalar.ofNat 0 : Float32) < a ↔ ∃ x, IsNumber a x ∧ 0 < x := by
  have hzero : number? (Scalar.ofNat 0) = some 0 := (number?_ofNat 0).trans (congrArg some rounded_zero)
  rw [float_lt_iff]
  constructor
  · rintro ⟨x, y, hx, hy, hxy⟩
    obtain rfl : 0 = x := Option.some.inj (hzero.symm.trans hx)
    exact ⟨y, ⟨hy, hxy.le⟩, hxy⟩
  · rintro ⟨x, hx, hpos⟩
    exact ⟨0, x, hzero, hx.eq, hpos⟩

namespace IsNumber

theorem le (ha : IsNumber a x) (hb : IsNumber b y) (h : x ≤ y) : a ≤ b := float_le_iff.2 ⟨x, y, ha.eq, hb.eq, h⟩

theorem exists_of_le (ha : IsNumber a x) (h : a ≤ b) : ∃ y, IsNumber b y ∧ x ≤ y := by
  obtain ⟨x', y, hx', hy, hxy⟩ := float_le_iff.1 h
  obtain rfl : x = x' := Option.some.inj (ha.eq.symm.trans hx')
  exact ⟨y, ⟨hy, ha.nonneg.trans hxy⟩, hxy⟩

theorem isFinite_iff (ha : IsNumber a x) : a.isFinite = true ↔ x < 2 ^ 128 := by
  rw [float_isFinite_iff]
  constructor
  · rintro ⟨x', hx', -, hlt⟩
    obtain rfl : x = x' := Option.some.inj (ha.eq.symm.trans hx')
    exact hlt
  · intro hlt
    have hmax : (0 : ℚ) < 2 ^ 128 := by positivity
    exact ⟨x, ha.eq, by linarith [ha.nonneg], hlt⟩

theorem mul_max (ha : IsNumber a x) (hx : 0 < x) (hb : IsNumber b y) (hy : y = 2 ^ 128) : IsNumber (a * b) (2 ^ 128) := by
  have h := mul_infinity_eq ha.holds hx
  rw [← hb.holds.eq_infinity hy] at h
  exact ⟨h, by positivity⟩

theorem max_mul (ha : IsNumber a x) (hx : x = 2 ^ 128) (hb : IsNumber b y) (hy : 0 < y) : IsNumber (a * b) (2 ^ 128) := by
  have h := infinity_mul_eq hb.holds hy
  rw [← ha.holds.eq_infinity hx] at h
  exact ⟨h, by positivity⟩

theorem max_div (ha : IsNumber a x) (hx : x = 2 ^ 128) (hb : IsNumber b y) (hy₀ : 0 < y) (hy : y < 2 ^ 128) :
    IsNumber (a / b) (2 ^ 128) := by
  have h := infinity_div_eq hb.holds hy₀ hy
  rw [← ha.holds.eq_infinity hx] at h
  exact ⟨h, by positivity⟩

theorem div_max (ha : IsNumber a x) (hx : x < 2 ^ 128) (hb : IsNumber b y) (hy : y = 2 ^ 128) : IsNumber (a / b) 0 := by
  have h := div_infinity_eq ha.holds hx
  rw [← hb.holds.eq_infinity hy] at h
  exact ⟨h, le_rfl⟩

/-- Neither infinity by infinity nor 0 by 0 is a number. -/
theorem max_div_max (ha : IsNumber a x) (hx : x = 2 ^ 128) (hb : IsNumber b y) (hy : y = 2 ^ 128) :
    number? (a / b) = none := by
  show value? (stored (UnpackedFloat.div Format.binary32 a.toModel.unpack b.toModel.unpack)) = none
  rw [ha.holds.eq_infinity hx, hb.holds.eq_infinity hy]
  rfl

theorem zero_div_zero (ha : IsNumber a x) (hx : x = 0) (hb : IsNumber b y) (hy : y = 0) : number? (a / b) = none := by
  obtain ⟨s, hs⟩ := ha.holds.eq_zero hx
  obtain ⟨t, ht⟩ := hb.holds.eq_zero hy
  show value? (stored (UnpackedFloat.div Format.binary32 a.toModel.unpack b.toModel.unpack)) = none
  rw [hs, ht]
  exact congrArg value? stored_notANumber

end IsNumber

theorem le_self_of_operand (h : c ≤ c) (hnone : number? a = none → number? c = none) : a ≤ a := by
  obtain ⟨x, hx⟩ := le_self_iff.1 h
  refine le_self_iff.2 (Option.ne_none_iff_exists'.1 fun ha => ?_)
  exact Option.some_ne_none x (hx.symm.trans (hnone ha))

theorem number?_sub_eq_none (h : number? b = none) : number? (a - b) = none := by
  show value? (stored (UnpackedFloat.sub Format.binary32 a.toModel.unpack b.toModel.unpack)) = none
  rw [eq_notANumber h, sub_notANumber]
  rfl

theorem number?_mul_eq_none (h : number? a = none ∨ number? b = none) : number? (a * b) = none := by
  show value? (stored (UnpackedFloat.mul Format.binary32 a.toModel.unpack b.toModel.unpack)) = none
  rcases h with h | h
  · rw [eq_notANumber h, notANumber_mul]
    rfl
  · rw [eq_notANumber h, mul_notANumber]
    rfl

theorem number?_div_eq_none (h : number? b = none) : number? (a / b) = none := by
  show value? (stored (UnpackedFloat.div Format.binary32 a.toModel.unpack b.toModel.unpack)) = none
  rw [eq_notANumber h, div_notANumber]
  rfl

end Results

/-! ## laws -/

instance : Scalar.LawfulOrder Float32 where
  le_trans {a b c} hab hbc := by
    obtain ⟨x, y, hx, hy, hxy⟩ := float_le_iff.1 hab
    obtain ⟨y', z, hy', hz, hyz⟩ := float_le_iff.1 hbc
    obtain rfl : y = y' := Option.some.inj (hy.symm.trans hy')
    exact float_le_iff.2 ⟨x, z, hx, hz, hxy.trans hyz⟩
  le_self_left h := by
    obtain ⟨x, y, hx, -⟩ := float_le_iff.1 h
    exact le_self_iff.2 ⟨x, hx⟩
  le_self_right h := by
    obtain ⟨x, y, -, hy, -⟩ := float_le_iff.1 h
    exact le_self_iff.2 ⟨y, hy⟩
  le_self_of_isFinite h := by
    obtain ⟨x, hx, -⟩ := float_isFinite_iff.1 h
    exact le_self_iff.2 ⟨x, hx⟩
  le_total ha hb := by
    obtain ⟨x, hx⟩ := le_self_iff.1 ha
    obtain ⟨y, hy⟩ := le_self_iff.1 hb
    exact (le_total x y).imp (fun h => float_le_iff.2 ⟨x, y, hx, hy, h⟩) fun h => float_le_iff.2 ⟨y, x, hy, hx, h⟩
  lt_iff {a b} := by
    constructor
    · intro h
      obtain ⟨x, y, hx, hy, hxy⟩ := float_lt_iff.1 h
      refine ⟨float_le_iff.2 ⟨x, y, hx, hy, hxy.le⟩, fun hba => ?_⟩
      obtain ⟨y', x', hy', hx', hyx⟩ := float_le_iff.1 hba
      obtain rfl : x = x' := Option.some.inj (hx.symm.trans hx')
      obtain rfl : y = y' := Option.some.inj (hy.symm.trans hy')
      exact absurd hyx (not_le.2 hxy)
    · rintro ⟨hab, hba⟩
      obtain ⟨x, y, hx, hy, -⟩ := float_le_iff.1 hab
      exact float_lt_iff.2 ⟨x, y, hx, hy, not_le.1 fun h => hba (float_le_iff.2 ⟨y, x, hy, hx, h⟩)⟩
  beq_iff {a b} := by
    refine float_beq_iff.trans ⟨?_, ?_⟩
    · rintro ⟨x, y, hx, hy, rfl⟩
      exact ⟨float_le_iff.2 ⟨x, x, hx, hy, le_rfl⟩, float_le_iff.2 ⟨x, x, hy, hx, le_rfl⟩⟩
    · rintro ⟨hab, hba⟩
      obtain ⟨x, y, hx, hy, hxy⟩ := float_le_iff.1 hab
      obtain ⟨y', x', hy', hx', hyx⟩ := float_le_iff.1 hba
      obtain rfl : x = x' := Option.some.inj (hx.symm.trans hx')
      obtain rfl : y = y' := Option.some.inj (hy.symm.trans hy')
      exact ⟨x, y, hx, hy, le_antisymm hxy hyx⟩
  ofNat_le_ofNat {m n} h :=
    float_le_iff.2 ⟨_, _, number?_ofNat m, number?_ofNat n, rounded_le_rounded (Nat.cast_le.2 h)⟩

theorem isNumber_one : IsNumber (Scalar.ofNat 1) 1 := by
  have h := number?_ofNat 1
  rw [rounded_natCast (by decide), Nat.cast_one] at h
  exact ⟨h, zero_le_one⟩

theorem isNumber_ofNat (n : ℕ) : IsNumber (Scalar.ofNat n) (rounded n) :=
  ⟨number?_ofNat n, rounded_nonneg (Nat.cast_nonneg n)⟩

theorem isFinite_ofNat {n : ℕ} (h : n < wordSize) : Scalar.isFinite (Scalar.ofNat n : Float32) = true := by
  have hle : (n : ℚ) ≤ 2 ^ (64 : ℤ) := by exact_mod_cast h.le
  refine (isNumber_ofNat n).isFinite_iff.2 ?_
  calc rounded n ≤ rounded (2 ^ (64 : ℤ)) := rounded_le_rounded hle
    _ = 2 ^ (64 : ℤ) := rounded_two_zpow (by omega) (by omega)
    _ < 2 ^ 128 := by norm_num

instance : Scalar.LawfulArithmetic Float32 where
  zero_lt_one := zero_lt_iff.2 ⟨1, isNumber_one, one_pos⟩
  isFinite_one := isNumber_one.isFinite_iff.2 (by norm_num)
  isFinite_of_le ha hab hb := by
    obtain ⟨x, hx⟩ := zero_le_iff.1 ha
    obtain ⟨y, hy, hxy⟩ := hx.exists_of_le hab
    exact hx.isFinite_iff.2 (hxy.trans_lt (hy.isFinite_iff.1 hb))
  le_add ha hb := by
    obtain ⟨x, hx⟩ := zero_le_iff.1 ha
    obtain ⟨y, hy⟩ := zero_le_iff.1 hb
    refine hx.le (hx.add hy) ?_
    calc x = rounded x := hx.rounded_eq.symm
      _ ≤ rounded (x + y) := rounded_le_rounded (le_add_of_nonneg_right hy.nonneg)
  add_le_add ha hc hab hcd := by
    obtain ⟨x, hx⟩ := zero_le_iff.1 ha
    obtain ⟨z, hz⟩ := zero_le_iff.1 hc
    obtain ⟨y, hy, hxy⟩ := hx.exists_of_le hab
    obtain ⟨w, hw, hzw⟩ := hz.exists_of_le hcd
    exact (hx.add hz).le (hy.add hw) (rounded_le_rounded (add_le_add hxy hzw))
  le_self_of_sub h := le_self_of_operand h number?_sub_eq_none
  sub_nonneg ha hab hb := by
    obtain ⟨x, hx⟩ := zero_le_iff.1 ha
    obtain ⟨y, hy, hxy⟩ := hx.exists_of_le hab
    exact zero_le_iff.2 ⟨_, hx.sub hy hxy (hy.isFinite_iff.1 hb)⟩
  sub_le_sub ha hab hbc hc := by
    obtain ⟨x, hx⟩ := zero_le_iff.1 ha
    obtain ⟨y, hy, hxy⟩ := hx.exists_of_le hab
    obtain ⟨z, hz, hyz⟩ := hy.exists_of_le hbc
    have hfinite := hz.isFinite_iff.1 hc
    exact (hy.sub hz hyz hfinite).le (hx.sub hz (hxy.trans hyz) hfinite) (rounded_le_rounded (by linarith))
  le_self_of_mul h :=
    ⟨le_self_of_operand h fun ha => number?_mul_eq_none (.inl ha),
      le_self_of_operand h fun hb => number?_mul_eq_none (.inr hb)⟩
  mul_nonneg ha hb h := by
    obtain ⟨x, hx⟩ := zero_le_iff.1 ha
    obtain ⟨y, hy⟩ := zero_le_iff.1 hb
    obtain ⟨z, hz⟩ := le_self_iff.1 h
    exact zero_le_iff.2 ⟨z, hz, mul_nonneg_of_value? hx.holds hy.holds hz⟩
  mul_le_mul ha hab hc hfinite := by
    obtain ⟨x, hx⟩ := zero_le_iff.1 ha
    obtain ⟨y, hy, hxy⟩ := hx.exists_of_le hab
    obtain ⟨z, hz, hpos⟩ := zero_lt_iff.1 hc
    have hzmax := hz.isFinite_iff.1 hfinite
    rcases hy.le_max.lt_or_eq with hymax | hymax
    · exact (hz.mul hx hzmax (hxy.trans_lt hymax)).le (hz.mul hy hzmax hymax)
        (rounded_le_rounded (mul_le_mul_of_nonneg_left hxy hz.nonneg))
    · rcases hx.le_max.lt_or_eq with hxmax | hxmax
      · exact (hz.mul hx hzmax hxmax).le (hz.mul_max hpos hy hymax) (rounded_le _)
      · exact (hz.mul_max hpos hx hxmax).le (hz.mul_max hpos hy hymax) le_rfl
  le_self_of_div h := le_self_of_operand h number?_div_eq_none
  div_nonneg {a b} ha hb h := by
    obtain ⟨x, hx⟩ := zero_le_iff.1 ha
    obtain ⟨y, hy, hpos⟩ := zero_lt_iff.1 hb
    obtain ⟨z, hz⟩ := le_self_iff.1 h
    rcases hx.le_max.lt_or_eq with hxmax | hxmax <;> rcases hy.le_max.lt_or_eq with hymax | hymax
    · exact zero_le_iff.2 ⟨_, hx.div hy hxmax hpos hymax⟩
    · exact zero_le_iff.2 ⟨_, hx.div_max hxmax hy hymax⟩
    · exact zero_le_iff.2 ⟨_, hx.max_div hxmax hy hpos hymax⟩
    · exact absurd (hz.symm.trans (hx.max_div_max hxmax hy hymax)) (Option.some_ne_none z)
  div_le_one {a b} ha hab h := by
    obtain ⟨x, hx⟩ := zero_le_iff.1 ha
    obtain ⟨y, hy, hxy⟩ := hx.exists_of_le hab
    obtain ⟨z, hz⟩ := le_self_iff.1 h
    rcases hy.nonneg.eq_or_lt with hzero | hpos
    · have hx₀ : x = 0 := le_antisymm (hzero ▸ hxy) hx.nonneg
      exact absurd (hz.symm.trans (hx.zero_div_zero hx₀ hy hzero.symm)) (Option.some_ne_none z)
    rcases hy.le_max.lt_or_eq with hymax | hymax
    · refine (hx.div hy (hxy.trans_lt hymax) hpos hymax).le isNumber_one ?_
      rw [← isNumber_one.rounded_eq]
      exact rounded_le_rounded (div_le_one_of_le₀ hxy hy.nonneg)
    · rcases hx.le_max.lt_or_eq with hxmax | hxmax
      · exact (hx.div_max hxmax hy hymax).le isNumber_one zero_le_one
      · exact absurd (hz.symm.trans (hx.max_div_max hxmax hy hymax)) (Option.some_ne_none z)
  div_le_div ha hab hc hfinite := by
    obtain ⟨x, hx⟩ := zero_le_iff.1 ha
    obtain ⟨y, hy, hxy⟩ := hx.exists_of_le hab
    obtain ⟨z, hz, hpos⟩ := zero_lt_iff.1 hc
    have hzmax := hz.isFinite_iff.1 hfinite
    rcases hy.le_max.lt_or_eq with hymax | hymax
    · exact (hx.div hz (hxy.trans_lt hymax) hpos hzmax).le (hy.div hz hymax hpos hzmax)
        (rounded_le_rounded (div_le_div_of_nonneg_right hxy hz.nonneg))
    · rcases hx.le_max.lt_or_eq with hxmax | hxmax
      · exact (hx.div hz hxmax hpos hzmax).le (hy.max_div hymax hz hpos hzmax) (rounded_le _)
      · exact (hx.max_div hxmax hz hpos hzmax).le (hy.max_div hymax hz hpos hzmax) le_rfl
  isFinite_of_div_pos {a b} ha hb h := by
    obtain ⟨x, hx⟩ := zero_le_iff.1 ha
    obtain ⟨y, hy⟩ := zero_le_iff.1 hb
    obtain ⟨z, hz, hpos⟩ := zero_lt_iff.1 h
    refine hy.isFinite_iff.2 (hy.le_max.lt_of_ne fun hymax => ?_)
    rcases hx.le_max.lt_or_eq with hxmax | hxmax
    · have hzero : z = 0 := Option.some.inj (hz.eq.symm.trans (hx.div_max hxmax hy hymax).eq)
      exact absurd hzero hpos.ne'
    · exact absurd (hz.eq.symm.trans (hx.max_div_max hxmax hy hymax)) (Option.some_ne_none z)

end ContentSearch.Single
