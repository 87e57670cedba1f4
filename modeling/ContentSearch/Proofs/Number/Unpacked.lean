import ContentSearch.Proofs.Number.Rounding
import Mathlib

/-!
# What operations in single precision round to

The model of single precision computes with mantissas and exponents: an operation gives a mantissa that is exact up to two
further bits, shifts it to the exponent that is right for its size, rounds it, and packs the result into 32 bits.

* `Stands`: the number that a mantissa with its two bits stands for, which shifting halves;
* `rounds_roundWithAccuracy`: so what is left in the end is the number rounded;
* `unpack_pack_finite`, `canonical_of_unpack`: packing loses nothing but what is too large.
-/

namespace ContentSearch.Single

open Float.Model Float.Model.UnpackedFloat

/-! ## mantissas with further bits -/

/-- A mantissa stands for a number together with its two bits: the first says whether to add a half, and the second
whether to add something that is less. -/
def Stands (em : ExtendedMantissa) (x : ℚ) : Prop :=
  ∃ r : ℚ, 0 ≤ r ∧ r < 1 / 2 ∧ (em.stickyBit = true ↔ 0 < r) ∧
    x = em.mantissa + (em.roundBit.toNat : ℚ) / 2 + r

namespace Stands

variable {em : ExtendedMantissa} {x : ℚ}

theorem exact (m : ℕ) : Stands (.ofMantissaAndAccuracy m .exact) m :=
  ⟨0, le_rfl, by norm_num, by simp [ExtendedMantissa.ofMantissaAndAccuracy],
    by simp [ExtendedMantissa.ofMantissaAndAccuracy]⟩

/-- A quotient of natural numbers with the share that is left over. -/
theorem fraction (m : ℕ) {k n : ℕ} (h : k < n) :
    Stands (.ofMantissaAndAccuracy m (accuracyOfFraction k n)) (m + (k : ℚ) / n) := by
  have hn : (0 : ℚ) < n := by exact_mod_cast Nat.zero_lt_of_lt h
  have hk : (0 : ℚ) ≤ k / n := by positivity
  unfold accuracyOfFraction
  split
  · next hzero =>
    rw [hzero, Nat.cast_zero, zero_div, add_zero]
    exact exact m
  next hzero =>
  have hpos : (0 : ℚ) < k / n := div_pos (by exact_mod_cast Nat.pos_of_ne_zero hzero) hn
  have hone : (k : ℚ) / n < 1 := (div_lt_one hn).2 (by exact_mod_cast h)
  cases hcompare : compare (2 * k) n with
  | lt =>
    have hhalf : (k : ℚ) / n < 1 / 2 := by
      have hlt : (2 : ℚ) * k < n := by exact_mod_cast Nat.compare_eq_lt.1 hcompare
      rw [div_lt_iff₀ hn]
      linarith
    exact ⟨k / n, hk, hhalf, by simp [ExtendedMantissa.ofMantissaAndAccuracy, hpos],
      by simp [ExtendedMantissa.ofMantissaAndAccuracy]⟩
  | eq =>
    have hhalf : (k : ℚ) / n = 1 / 2 := by
      have heq : (2 : ℚ) * k = n := by exact_mod_cast Nat.compare_eq_eq.1 hcompare
      rw [div_eq_iff hn.ne']
      linarith
    exact ⟨0, le_rfl, by norm_num, by simp [ExtendedMantissa.ofMantissaAndAccuracy],
      by simp [ExtendedMantissa.ofMantissaAndAccuracy, hhalf]⟩
  | gt =>
    have hhalf : 1 / 2 < (k : ℚ) / n := by
      have hgt : (n : ℚ) < 2 * k := by exact_mod_cast Nat.compare_eq_gt.1 hcompare
      rw [lt_div_iff₀ hn]
      linarith
    refine ⟨k / n - 1 / 2, by linarith, by linarith, ?_, ?_⟩
    · simp only [ExtendedMantissa.ofMantissaAndAccuracy, true_iff]
      linarith
    · simp only [ExtendedMantissa.ofMantissaAndAccuracy, Bool.toNat_true, Nat.cast_one]
      ring

theorem shiftRightOne (h : Stands em x) : Stands em.shiftRightOne (x / 2) := by
  obtain ⟨r, hr₀, hr₁, hsticky, rfl⟩ := h
  have hround : (em.roundBit.toNat : ℚ) ≤ 1 := by exact_mod_cast Bool.toNat_le em.roundBit
  have hround₀ : (0 : ℚ) ≤ em.roundBit.toNat := Nat.cast_nonneg _
  have hdigits : (em.mantissa : ℚ) = 2 * (em.mantissa / 2 : ℕ) + (em.mantissa % 2 : ℕ) := by
    exact_mod_cast (Nat.div_add_mod em.mantissa 2).symm
  have hdigit : (em.mantissa % 2 != 0).toNat = em.mantissa % 2 := by
    rcases Nat.mod_two_eq_zero_or_one em.mantissa with h | h <;> rw [h] <;> rfl
  refine ⟨((em.roundBit.toNat : ℚ) / 2 + r) / 2, by linarith, by linarith, ?_, ?_⟩
  · -- there is something to add if there is a half or something less
    show (em.roundBit || em.stickyBit) = true ↔ _
    cases hbit : em.roundBit with
    | false => simpa using hsticky
    | true =>
      simp only [Bool.true_or, true_iff, Bool.toNat_true]
      linarith
  · show _ = ((em.mantissa / 2 : ℕ) : ℚ) + ((em.mantissa % 2 != 0).toNat : ℚ) / 2 + _
    rw [hdigit, hdigits]
    ring

theorem shiftRight (h : Stands em x) (n : ℕ) : Stands (em >>> n) (x / 2 ^ n) := by
  show Stands (n.repeat ExtendedMantissa.shiftRightOne em) _
  induction n with
  | zero => simpa [Nat.repeat] using h
  | succ n ih =>
    rw [pow_succ, ← div_div]
    exact ih.shiftRightOne

theorem floor (h : Stands em x) : ⌊x⌋₊ = em.mantissa := by
  obtain ⟨r, hr₀, hr₁, -, rfl⟩ := h
  have hround : (em.roundBit.toNat : ℚ) ≤ 1 := by exact_mod_cast Bool.toNat_le em.roundBit
  have hround₀ : (0 : ℚ) ≤ em.roundBit.toNat := Nat.cast_nonneg _
  have hmantissa : (0 : ℚ) ≤ em.mantissa := Nat.cast_nonneg _
  exact (Nat.floor_eq_iff (by linarith)).2 ⟨by linarith, by linarith⟩

theorem roundedMantissa (h : Stands em x) : em.roundedMantissa = roundEven x := by
  rw [roundEven, h.floor]
  obtain ⟨r, hr₀, hr₁, hsticky, rfl⟩ := h
  obtain ⟨m, roundBit, stickyBit⟩ := em
  dsimp only at hsticky ⊢
  cases roundBit with
  | false =>
    have hless : (m : ℚ) + (false.toNat : ℚ) / 2 + r < m + 1 / 2 := by
      rw [Bool.toNat_false, Nat.cast_zero]
      linarith
    rw [if_pos hless]
    cases stickyBit <;> rfl
  | true =>
    rw [Bool.toNat_true, Nat.cast_one, if_neg (by linarith)]
    cases stickyBit with
    | false =>
      have hr : ¬ 0 < r := fun h => Bool.false_ne_true (hsticky.2 h)
      rw [if_neg (by linarith)]
      rfl
    | true =>
      have hr : 0 < r := hsticky.1 rfl
      rw [if_pos (by linarith)]
      rfl

end Stands

/-! ## rounding -/

/-- The mantissas and exponents of the numbers in single precision, but for a greatest exponent. -/
structure Canonical (m : ℕ) (e : ℤ) : Prop where
  lt : m < 2 ^ 24
  le : -149 ≤ e
  normal : e = -149 ∨ 2 ^ 23 ≤ m

/-- An unpacked number is what a number is rounded to, but for a greatest exponent. A zero may have either sign. -/
inductive Rounds (s : Sign) (x : ℚ) : UnpackedFloat → Prop
  | zero {t : Sign} : mantissa x = 0 → Rounds s x (.zero t)
  | finite {m : ℕ} {e : ℤ} {hm : 0 < m} :
      Canonical m e → (m : ℚ) * 2 ^ e = mantissa x * 2 ^ exponent x → Rounds s x (.finite s m e hm)

theorem two_zpow_log2_le {m : ℕ} (hm : m ≠ 0) (e : ℤ) : (2 : ℚ) ^ ((m.log2 : ℤ) + e) ≤ m * 2 ^ e := by
  have hpow : (2 : ℚ) ^ (m.log2 : ℤ) ≤ m := by exact_mod_cast Nat.log2_self_le hm
  rw [two_zpow_add]
  exact mul_le_mul_of_nonneg_right hpow (two_zpow_pos e).le

theorem succ_le_two_zpow_log2 (m : ℕ) : (m : ℚ) + 1 ≤ 2 ^ ((m.log2 : ℤ) + 1) := by
  have hpow : m + 1 ≤ 2 ^ (m.log2 + 1) := Nat.lt_log2_self
  exact_mod_cast hpow

theorem lt_two_zpow_log2 (m : ℕ) (e : ℤ) : (m : ℚ) * 2 ^ e < 2 ^ ((m.log2 : ℤ) + 1 + e) := by
  rw [two_zpow_add, mul_lt_mul_iff_left₀ (two_zpow_pos e)]
  exact (lt_add_one _).trans_le (succ_le_two_zpow_log2 m)

theorem targetExponent_eq (k : ℤ) : Format.binary32.targetExponent k = max (k - 24) (-149) := rfl

/-- The exponent that a mantissa is shifted to is the right one for the number that it stands for. -/
theorem targetExponent_eq_exponent {x : ℚ} (hx : 0 ≤ x) {m : ℕ} (hm : ⌊x⌋₊ = m) {e : ℤ} (he : e ≤ exponent (x * 2 ^ e)) :
    Format.binary32.targetExponent (totalExponent m e) = exponent (x * 2 ^ e) := by
  obtain ⟨hle, hlt⟩ := (Nat.floor_eq_iff hx).1 hm
  rw [targetExponent_eq, totalExponent]
  refine (exponent_eq_iff.2 ⟨le_max_right .., ?_, ?_⟩).symm
  · have hdigits : x < 2 ^ ((m.log2 : ℤ) + 1) := hlt.trans_le (succ_le_two_zpow_log2 m)
    calc x * 2 ^ e < 2 ^ ((m.log2 : ℤ) + 1) * 2 ^ e := mul_lt_mul_of_pos_right hdigits (two_zpow_pos e)
      _ = 2 ^ ((m.log2 : ℤ) + 1 + e) := (two_zpow_add ..).symm
      _ ≤ _ := two_zpow_le_two_zpow (by omega)
  · rw [or_iff_not_imp_left]
    intro hleast
    have htarget : max ((m.log2 : ℤ) + 1 + e - 24) (-149) = m.log2 + e - 23 := by omega
    rw [htarget]
    by_cases hzero : m = 0
    · -- a number less than 1 is not large enough
      exfalso
      subst hzero
      have hsmall : x * 2 ^ e < 2 ^ e := by
        have hone : x < 1 := by simpa using hlt
        nlinarith [two_zpow_pos e]
      rcases exponent_cases (x * 2 ^ e) with ht | ht
      · simp only [Nat.log2_zero] at htarget hleast
        omega
      · have hexponent := lt_of_two_zpow_lt (ht.trans_lt hsmall)
        omega
    · rw [sub_add_cancel]
      exact (two_zpow_log2_le hzero e).trans (mul_le_mul_of_nonneg_right hle (two_zpow_pos e).le)

theorem shift_of_lt {m : ℕ} {e : ℤ} (hm : m < 2 ^ 24) (he : -149 ≤ e) :
    shiftToTargetExponent Format.binary32 m e .exact = (.ofMantissaAndAccuracy m .exact, e) := by
  have hdigits : m.log2 < 24 := by
    by_cases hzero : m = 0
    · rw [hzero, Nat.log2_zero]
      omega
    · exact (Nat.log2_lt hzero).2 hm
  have hshift : (Format.binary32.targetExponent (totalExponent m e) - e).toNat = 0 := by
    rw [targetExponent_eq, totalExponent]
    omega
  rw [shiftToTargetExponent, shiftToExponent, hshift, Nat.cast_zero, add_zero]
  rfl

theorem shift_of_eq {e : ℤ} (he : -149 ≤ e) :
    shiftToTargetExponent Format.binary32 (2 ^ 24) e .exact = (.ofMantissaAndAccuracy (2 ^ 23) .exact, e + 1) := by
  have hshift : (Format.binary32.targetExponent (totalExponent (2 ^ 24) e) - e).toNat = 1 := by
    rw [targetExponent_eq, totalExponent, Nat.log2_two_pow]
    omega
  rw [shiftToTargetExponent, shiftToExponent, hshift]
  rfl

theorem rounds_of_canonical {s : Sign} {x : ℚ} {m : ℕ} {e : ℤ} (hc : Canonical m e)
    (h : (m : ℚ) * 2 ^ e = mantissa x * 2 ^ exponent x) :
    Rounds s x (if hm : m = 0 then .zero s else .finite s m e (Nat.pos_of_ne_zero hm)) := by
  split
  · next hm =>
    rw [hm, Nat.cast_zero, zero_mul, eq_comm, mul_eq_zero, or_iff_left (two_zpow_pos _).ne'] at h
    exact .zero (Nat.cast_eq_zero.1 h)
  · exact .finite hc h

/-- **What a mantissa is rounded to is what the number is rounded to that it stands for.** -/
theorem rounds_roundWithAccuracy {m : ℕ} {accuracy : Accuracy} {x : ℚ}
    (h : Stands (.ofMantissaAndAccuracy m accuracy) x) {e : ℤ} (he : e ≤ exponent (x * 2 ^ e)) (s : Sign) :
    Rounds s (x * 2 ^ e) (roundWithAccuracy Format.binary32 s m e accuracy) := by
  have hx : 0 ≤ x := by
    obtain ⟨r, hr, -, -, rfl⟩ := h
    positivity
  have hfloor : ⌊x⌋₊ = m := by
    rw [h.floor]
    cases accuracy with
    | exact => rfl
    | inexact o => cases o <;> rfl
  -- the first shift, to the right exponent
  obtain ⟨k, hk⟩ : ∃ k : ℕ, exponent (x * 2 ^ e) = e + k := Int.le.dest he |>.imp fun _ => Eq.symm
  have hfirst : shiftToTargetExponent Format.binary32 m e accuracy =
      (ExtendedMantissa.ofMantissaAndAccuracy m accuracy >>> k, exponent (x * 2 ^ e)) := by
    have hshift : (exponent (x * 2 ^ e) - e).toNat = k := by omega
    rw [shiftToTargetExponent, targetExponent_eq_exponent hx hfloor he, shiftToExponent, hshift, hk]
  have hmantissa : (ExtendedMantissa.ofMantissaAndAccuracy m accuracy >>> k).roundedMantissa = mantissa (x * 2 ^ e) := by
    rw [(h.shiftRight k).roundedMantissa, mantissa, hk, two_zpow_add, zpow_natCast,
      mul_comm x, mul_div_mul_left _ _ (two_zpow_pos e).ne']
  unfold roundWithAccuracy
  rw [hfirst]
  dsimp only
  rw [hmantissa]
  -- the second one, if the mantissa has become too long
  have hle : -149 ≤ exponent (x * 2 ^ e) := le_exponent _
  rcases (mantissa_le (x * 2 ^ e)).lt_or_eq with hlt | heq
  · rw [shift_of_lt hlt hle]
    exact rounds_of_canonical ⟨hlt, hle, le_mantissa _⟩ rfl
  · rw [heq, shift_of_eq hle]
    refine rounds_of_canonical ⟨Nat.pow_lt_pow_right one_lt_two (by omega), by omega, .inr le_rfl⟩ ?_
    show ((2 ^ 23 : ℕ) : ℚ) * 2 ^ (exponent (x * 2 ^ e) + 1) = _
    rw [heq, two_zpow_add]
    push_cast
    ring

theorem targetExponent_le_exponent {m : ℕ} (hm : m ≠ 0) (e : ℤ) :
    Format.binary32.targetExponent (totalExponent m e) ≤ exponent (m * 2 ^ e) := by
  have hlt := lt_of_two_zpow_lt ((two_zpow_log2_le hm e).trans_lt (lt_two_zpow_exponent _))
  have hle := le_exponent (m * 2 ^ e)
  rw [targetExponent_eq, totalExponent]
  omega

theorem rounds_round {m : ℕ} (hm : m ≠ 0) (e : ℤ) (s : Sign) :
    Rounds s (m * 2 ^ e) (UnpackedFloat.round Format.binary32 s m e) := by
  have htarget := targetExponent_le_exponent hm e
  obtain ⟨k, hk⟩ : ∃ k, (e - Format.binary32.targetExponent (totalExponent m e)).toNat = k := ⟨_, rfl⟩
  have hvalue : ((m <<< k : ℕ) : ℚ) * 2 ^ (e - k) = m * 2 ^ e := by
    rw [Nat.shiftLeft_eq, Nat.cast_mul, Nat.cast_pow, Nat.cast_ofNat, ← zpow_natCast, mul_assoc, ← two_zpow_add,
      add_sub_cancel]
  have hrounds := rounds_roundWithAccuracy (Stands.exact (m <<< k)) (e := e - k) (by rw [hvalue]; omega) s
  rw [hvalue] at hrounds
  rw [UnpackedFloat.round, decreaseExponent, hk]
  exact hrounds

theorem mantissa_zero : mantissa 0 = 0 := by
  rw [mantissa, zero_div]
  exact roundEven_natCast 0

theorem rounds_normalize {n : ℤ} (hn : 0 ≤ n) (e : ℤ) (s : Sign) :
    Rounds .positive (n * 2 ^ e) (UnpackedFloat.normalize Format.binary32 n e s) := by
  obtain ⟨m, rfl⟩ := Int.eq_ofNat_of_zero_le hn
  unfold UnpackedFloat.normalize
  split
  · next h => exact absurd (Int.compare_eq_lt.1 h) (by omega)
  · next h =>
    rw [Int.compare_eq_eq.1 h, Int.cast_zero, zero_mul]
    exact .zero mantissa_zero
  · next h =>
    have hm : m ≠ 0 := by
      rintro rfl
      exact absurd (Int.compare_eq_gt.1 h) (lt_irrefl _)
    exact rounds_round hm e .positive

/-! ## packing -/

theorem toNat_append_one (v : BitVec 23) : (1#1 ++ v).toNat = 2 ^ 23 + v.toNat := by
  rw [BitVec.toNat_append, ← Nat.shiftLeft_add_eq_or_of_lt v.isLt]
  rfl

/-- What is unpacked is a number in single precision. -/
theorem canonical_of_unpack {b : BitVec 32} {s : Sign} {m : ℕ} {e : ℤ} {hm : 0 < m}
    (h : unpack Format.binary32 b = .finite s m e hm) : Canonical m e ∧ e ≤ 104 := by
  have hmantissa : (@unpackMantissa Format.binary32 b).toNat < 2 ^ 23 := BitVec.isLt _
  have hexponent : (@unpackExponent Format.binary32 b).toNat < 2 ^ 8 := BitVec.isLt _
  have hbits : Format.binary32.mantissaBitsWithoutImplicit = 23 := rfl
  have hbias : Format.binary32.exponentBias = 127 := rfl
  unfold UnpackedFloat.unpack at h
  dsimp only at h
  split at h
  · split at h <;> cases h
  next hmax =>
  have hmax : (@unpackExponent Format.binary32 b).toNat ≠ 255 := fun heq => hmax (BitVec.eq_of_toNat_eq heq)
  split at h
  · next hzero =>
    split at h
    · cases h
    · cases h
      rw [hzero]
      exact ⟨⟨by omega, le_rfl, .inl rfl⟩, by decide⟩
  · next hzero =>
    have hzero : (@unpackExponent Format.binary32 b).toNat ≠ 0 := fun heq => hzero (BitVec.eq_of_toNat_eq heq)
    cases h
    have hdigits : (1#1 ++ @unpackMantissa Format.binary32 b).toNat = 2 ^ 23 + (@unpackMantissa Format.binary32 b).toNat :=
      toNat_append_one _
    refine ⟨⟨?_, ?_, .inr ?_⟩, ?_⟩ <;> omega

theorem unpack_subnormal (s : Sign) {M : BitVec 23} (hM : 0 < M.toNat) :
    unpack Format.binary32 (packComponents Format.binary32 s 0#8 M) = .finite s M.toNat (-149) hM := by
  have hne : M ≠ 0#23 := by
    rintro rfl
    exact lt_irrefl _ hM
  have hmax : (0#8 : BitVec 8) ≠ -1#8 := by decide
  rw [UnpackedFloat.unpack]
  simp only [unpackMantissa_packComponents, unpackExponent_packComponents, unpackSign_packComponents, Sign.ofBitVec_toBitVec,
    if_neg hmax, dif_neg hne, if_true]
  rfl

theorem unpack_normal (s : Sign) {E : BitVec 8} (M : BitVec 23) (hE : 0 < E.toNat) (hE' : E.toNat < 255) :
    unpack Format.binary32 (packComponents Format.binary32 s E M) =
      .finite s (2 ^ 23 + M.toNat) (E.toNat - 150) (Nat.add_pos_left (Nat.two_pow_pos 23) _) := by
  have hmax : E ≠ -1#8 := by
    rintro rfl
    exact lt_irrefl _ hE'
  have hzero : E ≠ 0#8 := by
    rintro rfl
    exact lt_irrefl _ hE
  rw [UnpackedFloat.unpack]
  simp only [unpackMantissa_packComponents, unpackExponent_packComponents, unpackSign_packComponents, Sign.ofBitVec_toBitVec,
    if_neg hmax, if_neg hzero, toNat_append_one]
  rfl

/-- What is packed is unpacked again, unless its exponent is too large, which makes it infinite. -/
theorem unpack_pack_finite {s : Sign} {m : ℕ} {e : ℤ} (hm : 0 < m) (hc : Canonical m e) :
    unpack Format.binary32 (pack Format.binary32 (.finite s m e hm)) =
      if 105 ≤ e then .infinity s else .finite s m e hm := by
  obtain ⟨hlt, hle, hnormal⟩ := hc
  obtain ⟨b, hb⟩ : ∃ b : ℕ, (e + Format.binary32.exponentBias + Format.binary32.mantissaBitsWithoutImplicit).toNat = b :=
    ⟨_, rfl⟩
  have hbits : Format.binary32.mantissaBitsWithoutImplicit = 23 := rfl
  have hbias : Format.binary32.exponentBias = 127 := rfl
  rw [UnpackedFloat.pack, hb]
  dsimp only
  by_cases hmax : 105 ≤ e
  · rw [if_pos hmax, if_pos (by omega)]
    cases s <;> rfl
  rw [if_neg hmax, if_neg (by omega)]
  have hlength : Format.binary32.mantissaBits = 24 := rfl
  by_cases hlog : m.log2 + 1 = Format.binary32.mantissaBits
  · have hpow : 2 ^ 23 ≤ m := (Nat.le_log2 hm.ne').1 (by omega)
    have hE : (BitVec.ofNat 8 b).toNat = b := by
      rw [BitVec.toNat_ofNat]
      exact Nat.mod_eq_of_lt (by omega)
    have hM : 2 ^ 23 + (BitVec.ofNat 23 m).toNat = m := by
      rw [BitVec.toNat_ofNat]
      omega
    rw [if_pos hlog]
    refine (unpack_normal s (E := BitVec.ofNat 8 b) (BitVec.ofNat 23 m) ?_ ?_).trans ?_
    · omega
    · omega
    · simp only [hE, hM]
      congr 1
      omega
  · have hpow : m < 2 ^ 23 := by
      by_contra hnot
      have hlow : 23 ≤ m.log2 := (Nat.le_log2 hm.ne').2 (not_lt.1 hnot)
      have hhigh : m.log2 < 24 := (Nat.log2_lt hm.ne').2 hlt
      omega
    obtain rfl : e = -149 := hnormal.resolve_right (by omega)
    have hM : (BitVec.ofNat 23 m).toNat = m := by
      rw [BitVec.toNat_ofNat]
      exact Nat.mod_eq_of_lt hpow
    rw [if_neg hlog]
    refine (unpack_subnormal s (M := BitVec.ofNat 23 m) (by omega)).trans ?_
    simp only [hM]

end ContentSearch.Single
