import CodeGrade.Proofs.Defined

/-!
# Bounds that survive rounding

The product or the quotient of two floating-point numbers is rounded. Rounding adds less than one
unit in the last place, so a result below a power of two exceeds its exact value by a known amount
at most. This is enough for scores: the bounds are whole numbers or hundredths, and rounding to the
nearest of those removes the excess.

## Main definitions

* `Decimal.Within`: a number from zero up to a bound.
-/

namespace CodeGrade

namespace Decimal

open Float.Model Float.Model.UnpackedFloat

/-! ### Rounding -/

theorem mantissa_shiftRight (em : ExtendedMantissa) (k : ℕ) :
    (em >>> k).mantissa = em.mantissa / 2 ^ k := by
  change (k.repeat ExtendedMantissa.shiftRightOne em).mantissa = _
  induction k with
  | zero => simp [Nat.repeat]
  | succ k ih =>
    rw [Nat.repeat, ExtendedMantissa.shiftRightOne, ih, Nat.div_div_eq_div_mul, pow_succ]

theorem roundedMantissa_bounds (em : ExtendedMantissa) :
    em.mantissa ≤ em.roundedMantissa ∧ em.roundedMantissa ≤ em.mantissa + 1 := by
  obtain ⟨m, roundBit, stickyBit⟩ := em
  cases roundBit <;> cases stickyBit <;>
    simp only [ExtendedMantissa.roundedMantissa, ExtendedMantissa.accuracy,
      Accuracy.roundToNearestEven] <;> omega

/-- The exponent to which a number is rounded. -/
def roundingExponent (m : ℕ) (e : ℤ) : ℤ := max (m.log2 + 1 + e - 53) (-1074)

section Round

variable {m : ℕ} {e : ℤ}

theorem le_roundingExponent (h : 2 ^ 52 ≤ m ∨ e ≤ -1074) : e ≤ roundingExponent m e := by
  rw [roundingExponent]
  rcases h with hfull | hsmall
  · have hlog : 52 ≤ m.log2 := (Nat.le_log2 (by omega)).2 hfull
    omega
  · omega

theorem shiftToTargetExponent_eq (h : 2 ^ 52 ≤ m ∨ e ≤ -1074) (accuracy : Accuracy) :
    ∃ em : ExtendedMantissa, em.mantissa = m / 2 ^ (roundingExponent m e - e).toNat ∧
      shiftToTargetExponent Format.binary64 m e accuracy = (em, roundingExponent m e) := by
  have hle := le_roundingExponent h
  have hmantissa : (ExtendedMantissa.ofMantissaAndAccuracy m accuracy).mantissa = m := by
    cases accuracy with
    | exact => rfl
    | inexact order => cases order <;> rfl
  refine ⟨ExtendedMantissa.ofMantissaAndAccuracy m accuracy >>> (roundingExponent m e - e).toNat,
    ?_, ?_⟩
  · rw [mantissa_shiftRight, hmantissa]
  · rw [shiftToTargetExponent, targetExponent_eq, ← roundingExponent, shiftToExponent]
    exact Prod.ext rfl (by dsimp only; omega)

/-- What is left of a mantissa has no more bits than the format allows, and as many unless the
exponent is the smallest one. -/
theorem shifted_bounds (m : ℕ) (h : 2 ^ 52 ≤ m ∨ e ≤ -1074) :
    m / 2 ^ (roundingExponent m e - e).toNat < 2 ^ 53 ∧
      (2 ^ 52 ≤ m / 2 ^ (roundingExponent m e - e).toNat ∨ roundingExponent m e = -1074) := by
  have hle := le_roundingExponent h
  generalize hk : (roundingExponent m e - e).toNat = k
  rw [roundingExponent] at hle hk ⊢
  constructor
  · rw [Nat.div_lt_iff_lt_mul (by positivity), ← pow_add]
    exact Nat.lt_log2_self.trans_le (Nat.pow_le_pow_right (by norm_num) (by omega))
  · by_cases hmin : max ((m.log2 : ℤ) + 1 + e - 53) (-1074) = -1074
    · exact .inr hmin
    · left
      have hlog : 52 + k = m.log2 := by omega
      have hm : m ≠ 0 := by
        rintro rfl
        simp at hlog
      rw [Nat.le_div_iff_mul_le (by positivity), ← pow_add, hlog]
      exact Nat.log2_self_le hm

theorem two_zpow_pos (e : ℤ) : (0 : ℚ) < 2 ^ e := zpow_pos (by norm_num) e

/-- A number that loses its last `k` bits and gains one unit exceeds what it was by that unit at
most. -/
theorem value_le_add_unit {r k : ℕ} (hr : r ≤ m / 2 ^ k + 1) :
    (r : ℚ) * 2 ^ (k + e) ≤ m * 2 ^ e + 2 ^ (k + e) := by
  have hnat : r * 2 ^ k ≤ m + 2 ^ k := by
    have hdiv := Nat.div_mul_le_self m (2 ^ k)
    have hmul := Nat.mul_le_mul_right (2 ^ k) hr
    rw [Nat.add_mul, one_mul] at hmul
    omega
  have hrat : (r : ℚ) * 2 ^ k ≤ m + 2 ^ k := by exact_mod_cast hnat
  rw [zpow_add₀ (by norm_num), zpow_natCast, ← mul_assoc, ← add_mul]
  exact mul_le_mul_of_nonneg_right hrat (two_zpow_pos e).le

/-- Rounding gives zero or canonical parts, and adds at most one unit in the last place. -/
theorem roundWithAccuracy_cases (h : 2 ^ 52 ≤ m ∨ e ≤ -1074) (hlarge : roundingExponent m e ≤ 970)
    (s : Sign) (accuracy : Accuracy) :
    roundWithAccuracy Format.binary64 s m e accuracy = .zero s ∨
      ∃ (r : ℕ) (e' : ℤ) (hr : Canonical r e'),
        roundWithAccuracy Format.binary64 s m e accuracy = .finite s r e' hr.pos ∧
          (r : ℚ) * 2 ^ e' ≤ m * 2 ^ e + 2 ^ roundingExponent m e := by
  obtain ⟨em, hem, hfirst⟩ := shiftToTargetExponent_eq h accuracy
  obtain ⟨hlow, hhigh⟩ := roundedMantissa_bounds em
  obtain ⟨hlt, hfull⟩ := shifted_bounds m h
  have hle := le_roundingExponent h
  have hsmallest : -1074 ≤ roundingExponent m e := le_max_right _ _
  rw [hem] at hlow hhigh
  generalize hk : (roundingExponent m e - e).toNat = k at hlow hhigh hlt hfull
  have hvalue : (em.roundedMantissa : ℚ) * 2 ^ roundingExponent m e ≤
      m * 2 ^ e + 2 ^ roundingExponent m e := by
    have hexponent : roundingExponent m e = k + e := by omega
    rw [hexponent]
    exact value_le_add_unit hhigh
  rcases Nat.eq_zero_or_pos em.roundedMantissa with hzero | hpos
  · left
    have hagain : (shiftToTargetExponent Format.binary64 0 (roundingExponent m e) .exact).1.mantissa =
        0 := by
      simp [shiftToTargetExponent, shiftToExponent, mantissa_shiftRight,
        ExtendedMantissa.ofMantissaAndAccuracy]
    simp only [roundWithAccuracy, hfirst, hzero]
    rw [dif_pos hagain]
  · right
    rcases Nat.lt_or_ge em.roundedMantissa (2 ^ 53) with hsmall | hbig
    · have hr : Canonical em.roundedMantissa (roundingExponent m e) :=
        ⟨hpos, hsmall, hsmallest, by omega, hfull.imp_left (·.trans hlow)⟩
      have hagain := hr.shiftToTargetExponent 0
      simp only [pow_zero, mul_one, Nat.cast_zero, sub_zero] at hagain
      refine ⟨_, _, hr, ?_, hvalue⟩
      simp only [roundWithAccuracy, hfirst, hagain, dif_neg hpos.ne']
    · -- The mantissa has been rounded up to the next power of two.
      have hmax : em.roundedMantissa = 2 ^ 52 * 2 ^ 1 := by omega
      have hr : Canonical (2 ^ 52) (roundingExponent m e + 1) :=
        ⟨by norm_num, by norm_num, by omega, by omega, .inl le_rfl⟩
      have hagain := hr.shiftToTargetExponent 1
      rw [Nat.cast_one, add_sub_cancel_right] at hagain
      refine ⟨_, _, hr, ?_, ?_⟩
      · simp only [roundWithAccuracy, hfirst, hmax, hagain, dif_neg hr.pos.ne']
      · refine le_trans (le_of_eq ?_) hvalue
        rw [hmax, zpow_add₀ (by norm_num)]
        push_cast
        ring

theorem roundingExponent_le {t : ℤ} (ht : -1021 ≤ t) (h : 2 ^ 52 ≤ m ∨ e ≤ -1074)
    (hlt : (m : ℚ) * 2 ^ e < 2 ^ t) : roundingExponent m e ≤ t - 53 := by
  have htop : (m.log2 : ℤ) + e < t := by
    rcases Nat.eq_zero_or_pos m with rfl | hm
    · simp only [Nat.log2_zero, Nat.cast_zero]
      omega
    · have hlog : ((2 : ℚ) ^ m.log2) ≤ m := by exact_mod_cast Nat.log2_self_le hm.ne'
      have hpow : (2 : ℚ) ^ ((m.log2 : ℤ) + e) < 2 ^ t := by
        rw [zpow_add₀ (by norm_num), zpow_natCast]
        exact (mul_le_mul_of_nonneg_right hlog (two_zpow_pos e).le).trans_lt hlt
      exact (zpow_lt_zpow_iff_right₀ (by norm_num)).1 hpow
  rw [roundingExponent]
  omega

end Round

/-! ### Bounds -/

/-- The number is neither negative nor undefined, and not above the bound. -/
def AtMost (b : ℚ) : UnpackedFloat → Prop
  | .zero _ => 0 ≤ b
  | .finite s m e _ => s = .positive ∧ (m : ℚ) * 2 ^ e ≤ b
  | _ => False

/-- The number is one from zero up to the bound. -/
def Within (x : Float) (b : ℚ) : Prop := AtMost b x.toModel.unpack

/-- The number is positive, has all the bits of the format, and its exact value is `c`. -/
def Normal (y : Float) (c : ℚ) : Prop :=
  ∃ m e, Binary64.ofFloat y = .finite false m e ∧ 2 ^ 52 ≤ m ∧ (m : ℚ) * 2 ^ e = c

variable {x y : Float} {a b c : ℚ} {t : ℤ}

theorem Within.parts (h : Within x b) :
    (∃ s, x.toModel.unpack = .zero s ∧ 0 ≤ b) ∨
      ∃ m e, ∃ hm : 0 < m, x.toModel.unpack = .finite .positive m e hm ∧ (m : ℚ) * 2 ^ e ≤ b := by
  unfold Within at h
  cases hx : x.toModel.unpack with
  | zero s =>
    rw [hx] at h
    exact .inl ⟨s, rfl, h⟩
  | finite s m e hm =>
    rw [hx] at h
    obtain ⟨rfl, hle⟩ := h
    exact .inr ⟨m, e, hm, rfl, hle⟩
  | infinity s => simp [hx, AtMost] at h
  | notANumber => simp [hx, AtMost] at h

theorem Within.mono (h : Within x a) (hab : a ≤ b) : Within x b := by
  rw [Within]
  rcases h.parts with ⟨s, hx, hle⟩ | ⟨m, e, hm, hx, hle⟩
  · rw [hx]
    exact hle.trans hab
  · rw [hx]
    exact ⟨rfl, hle.trans hab⟩

theorem Normal.unpack (h : Normal y c) :
    ∃ m e, ∃ hm : 0 < m, y.toModel.unpack = .finite .positive m e hm ∧ 2 ^ 52 ≤ m ∧
      (m : ℚ) * 2 ^ e = c := by
  obtain ⟨m, e, hy, hm, hc⟩ := h
  refine ⟨m, e, by omega, ?_, hm, hc⟩
  rw [unpack_eq_unpacked, hy, Binary64.unpacked, dif_neg (by omega)]
  rfl

theorem unpack_pack_zero (s : Sign) :
    UnpackedFloat.unpack Format.binary64 (UnpackedFloat.pack Format.binary64 (.zero s)) =
      .zero s := by
  change UnpackedFloat.unpack _ (packComponents Format.binary64 s 0#11 0#52) = _
  rw [unpack_packComponents, if_neg (by decide), if_pos rfl, dif_pos rfl]

/-- Rounding a number below a power of two adds less than a unit in its last place. -/
theorem atMost_round {m : ℕ} {e : ℤ} (accuracy : Accuracy) (h : 2 ^ 52 ≤ m ∨ e ≤ -1074)
    (hvalue : (m : ℚ) * 2 ^ e ≤ b) (hb : b < 2 ^ t) (hlow : -1021 ≤ t) (hhigh : t ≤ 1023) :
    AtMost (b + 2 ^ (t - 53)) (UnpackedFloat.unpack Format.binary64 (UnpackedFloat.pack
      Format.binary64 (roundWithAccuracy Format.binary64 .positive m e accuracy))) := by
  have hexponent := roundingExponent_le hlow h (hvalue.trans_lt hb)
  have hunit : (2 : ℚ) ^ roundingExponent m e ≤ 2 ^ (t - 53) :=
    zpow_le_zpow_right₀ (by norm_num) hexponent
  rcases roundWithAccuracy_cases h (by omega) .positive accuracy with hzero | ⟨r, e', hr, hround, hle⟩
  · rw [hzero, unpack_pack_zero]
    have hnonneg : 0 ≤ (m : ℚ) * 2 ^ e := by positivity
    have hunit' := two_zpow_pos (t - 53)
    change 0 ≤ b + 2 ^ (t - 53)
    linarith
  · rw [hround, hr.unpack_pack]
    exact ⟨rfl, by linarith⟩

/-- A product exceeds its exact value by less than a unit in its last place. -/
theorem Within.mul (hx : Within x a) (hy : Normal y c) (hlt : a * c < 2 ^ t) (hlow : -1021 ≤ t)
    (hhigh : t ≤ 1023) : Within (x * y) (a * c + 2 ^ (t - 53)) := by
  obtain ⟨m', e', hm', hunpack, hfull, rfl⟩ := hy.unpack
  change AtMost _ (UnpackedFloat.unpack _ (UnpackedFloat.pack _
    (UnpackedFloat.mul _ x.toModel.unpack y.toModel.unpack)))
  rw [hunpack]
  rcases hx.parts with ⟨s, hzero, hle⟩ | ⟨m, e, hm, hparts, hle⟩
  · rw [hzero, UnpackedFloat.mul, unpack_pack_zero]
    change 0 ≤ a * (m' * 2 ^ e') + 2 ^ (t - 53)
    positivity
  · rw [hparts, UnpackedFloat.mul]
    refine atMost_round .exact (.inl (hfull.trans (Nat.le_mul_of_pos_left m' hm))) ?_ hlt hlow hhigh
    calc ((m * m' : ℕ) : ℚ) * 2 ^ (e + e') = (m * 2 ^ e) * (m' * 2 ^ e') := by
          rw [zpow_add₀ (by norm_num)]
          push_cast
          ring
      _ ≤ a * (m' * 2 ^ e') := mul_le_mul_of_nonneg_right hle (by positivity)

/-- The whole part of a quotient of mantissas, shifted so that enough bits are left of it. -/
theorem divCore_bounds {m m' : ℕ} (e e' : ℤ) (hm : 0 < m) (hm' : 0 < m') :
    (((divCore Format.binary64 m e m' e').1 : ℕ) : ℚ) * 2 ^ (divCore Format.binary64 m e m' e').2.1 ≤
        (m * 2 ^ e) / (m' * 2 ^ e') ∧
      (2 ^ 52 ≤ (divCore Format.binary64 m e m' e').1 ∨
        (divCore Format.binary64 m e m' e').2.1 ≤ -1074) := by
  have htarget : Format.binary64.targetExponent (totalExponent m e - totalExponent m' e') =
      max (m.log2 + e - m'.log2 - e' - 53) (-1074) := by
    simp only [Format.targetExponent, totalExponent, Format.mantissaBits, Format.minExponent]
    norm_num
    omega
  simp only [divCore, htarget]
  generalize hexponent : min (e - e') (max (m.log2 + e - m'.log2 - e' - 53) (-1074)) = r
  obtain ⟨k, hk⟩ : ∃ k : ℕ, e - e' - r = k := ⟨(e - e' - r).toNat, by omega⟩
  rw [hk, Int.toNat_natCast, Nat.shiftLeft_eq]
  constructor
  · have hdiv : ((m * 2 ^ k / m' : ℕ) : ℚ) ≤ m * 2 ^ k / m' := by
      exact_mod_cast Nat.cast_div_le (α := ℚ) (m := m * 2 ^ k) (n := m')
    have hr : (2 : ℚ) ^ e = 2 ^ k * 2 ^ r * 2 ^ e' := by
      rw [← zpow_natCast, ← zpow_add₀ (by norm_num), ← zpow_add₀ (by norm_num)]
      congr 1
      omega
    calc ((m * 2 ^ k / m' : ℕ) : ℚ) * 2 ^ r ≤ m * 2 ^ k / m' * 2 ^ r :=
          mul_le_mul_of_nonneg_right hdiv (two_zpow_pos r).le
      _ = m * 2 ^ e / (m' * 2 ^ e') := by
          have hne := (two_zpow_pos e').ne'
          rw [hr]
          field_simp
  · by_cases hsmall : r ≤ -1074
    · exact .inr hsmall
    · left
      have hbits : m'.log2 + 53 ≤ m.log2 + k := by omega
      rw [Nat.le_div_iff_mul_le hm']
      calc 2 ^ 52 * m' ≤ 2 ^ 52 * 2 ^ (m'.log2 + 1) :=
            Nat.mul_le_mul_left _ Nat.lt_log2_self.le
        _ = 2 ^ (m'.log2 + 53) := by rw [← pow_add]; congr 1; omega
        _ ≤ 2 ^ (m.log2 + k) := Nat.pow_le_pow_right (by norm_num) hbits
        _ = 2 ^ m.log2 * 2 ^ k := pow_add _ _ _
        _ ≤ m * 2 ^ k := Nat.mul_le_mul_right _ (Nat.log2_self_le hm.ne')

/-- So does a quotient. -/
theorem Within.div (hx : Within x a) (hy : Normal y c) (hlt : a / c < 2 ^ t) (hlow : -1021 ≤ t)
    (hhigh : t ≤ 1023) : Within (x / y) (a / c + 2 ^ (t - 53)) := by
  obtain ⟨m', e', hm', hunpack, hfull, rfl⟩ := hy.unpack
  change AtMost _ (UnpackedFloat.unpack _ (UnpackedFloat.pack _
    (UnpackedFloat.div _ x.toModel.unpack y.toModel.unpack)))
  rw [hunpack]
  rcases hx.parts with ⟨s, hzero, hle⟩ | ⟨m, e, hm, hparts, hle⟩
  · rw [hzero, UnpackedFloat.div, unpack_pack_zero]
    change 0 ≤ a / (m' * 2 ^ e') + 2 ^ (t - 53)
    positivity
  · obtain ⟨hvalue, hbits⟩ := divCore_bounds e e' hm hm'
    rw [hparts, UnpackedFloat.div]
    refine atMost_round _ hbits (hvalue.trans ?_) hlt hlow hhigh
    exact div_le_div_of_nonneg_right hle (by positivity)

/-! ### Comparing -/

/-- Among numbers with all their bits the exponent decides. -/
theorem value_lt_of_exponent_lt {m m' : ℕ} {e e' : ℤ} (hm : m < 2 ^ 53) (hm' : 2 ^ 52 ≤ m')
    (he : e < e') : (m : ℚ) * 2 ^ e < m' * 2 ^ e' := by
  have hpow : (2 : ℚ) * 2 ^ e ≤ 2 ^ e' := by
    rw [← zpow_one_add₀ (by norm_num)]
    exact zpow_le_zpow_right₀ (by norm_num) (by omega)
  have hlt : (m : ℚ) < 2 ^ 53 := by exact_mod_cast hm
  have hge : (2 : ℚ) ^ 52 ≤ m' := by exact_mod_cast hm'
  calc (m : ℚ) * 2 ^ e < 2 ^ 53 * 2 ^ e := mul_lt_mul_of_pos_right hlt (two_zpow_pos e)
    _ = 2 ^ 52 * (2 * 2 ^ e) := by ring
    _ ≤ m' * 2 ^ e' := mul_le_mul hge hpow (by positivity) (by positivity)

theorem within_of_le (hx : 0.0 ≤ x) (hle : x ≤ y) (hy : Normal y c) : Within x c := by
  obtain ⟨m', e', hm', hunpack, hfull, rfl⟩ := hy.unpack
  rw [zero_le_iff] at hx
  rw [le_iff_unpacked, ← unpack_eq_unpacked, ← unpack_eq_unpacked, hunpack] at hle
  rw [Within]
  cases hparts : x.toModel.unpack with
  | zero s =>
    change 0 ≤ (m' : ℚ) * 2 ^ e'
    positivity
  | finite s m e hm =>
    rw [hparts] at hx hle
    obtain rfl : s = .positive := hx
    have hcanonical := canonical_of_finite (ofFloat_of_unpack hparts) hm.ne'
    refine ⟨rfl, ?_⟩
    simp only [UnpackedFloat.le, UnpackedFloat.compare, Option.any_some, Ordering.isLE_then_iff_or,
      Int.compare_eq_lt, Nat.isLE_compare, Std.LawfulEqCmp.compare_eq_iff_eq] at hle
    rcases hle with hlt | ⟨rfl, hle⟩
    · exact (value_lt_of_exponent_lt hcanonical.lt hfull hlt).le
    · have hmantissa : (m : ℚ) ≤ m' := by exact_mod_cast hle
      exact mul_le_mul_of_nonneg_right hmantissa (two_zpow_pos e).le
  | infinity s =>
    rw [hparts] at hx hle
    obtain rfl : s = .positive := hx
    cases hle
  | notANumber =>
    rw [hparts] at hle
    cases hle

/-- A number within the value of another is not above it. -/
theorem Within.le (hx : Within x b) (hb : b ≤ c) (hy : Normal y c) : x ≤ y := by
  obtain ⟨m', e', hm', hunpack, hfull, rfl⟩ := hy.unpack
  have hcanonical' := canonical_of_finite (ofFloat_of_unpack hunpack) hm'.ne'
  rw [le_iff_unpacked, ← unpack_eq_unpacked, ← unpack_eq_unpacked, hunpack]
  rcases hx.parts with ⟨s, hzero, -⟩ | ⟨m, e, hm, hparts, hle⟩
  · rw [hzero]
    rfl
  · have hcanonical := canonical_of_finite (ofFloat_of_unpack hparts) hm.ne'
    rw [hparts]
    simp only [UnpackedFloat.le, UnpackedFloat.compare, Option.any_some, Ordering.isLE_then_iff_or,
      Int.compare_eq_lt, Nat.isLE_compare, Std.LawfulEqCmp.compare_eq_iff_eq]
    rcases lt_trichotomy e e' with hlt | rfl | hgt
    · exact .inl hlt
    · refine .inr ⟨rfl, ?_⟩
      have hmantissa := le_of_mul_le_mul_right (hle.trans hb) (two_zpow_pos e)
      exact_mod_cast hmantissa
    · have hge := hcanonical'.exponent_ge
      have hfull' : 2 ^ 52 ≤ m := hcanonical.full.resolve_right (by omega)
      have hlt := value_lt_of_exponent_lt hcanonical'.lt hfull' hgt
      linarith

/-! ### Whole numbers -/

theorem within_ofNat {n : ℕ} (h : n < 2 ^ 53) : Within (Float.ofNat n) n := by
  rw [Within]
  rcases Nat.eq_zero_or_pos n with rfl | hpos
  · have hzero : Binary64.ofFloat (Float.ofNat 0) = .finite false 0 (-1074) := by decide +kernel
    rw [unpack_eq_unpacked, hzero]
    exact le_of_eq Nat.cast_zero.symm
  · rw [unpack_ofNat_of_lt hpos h]
    refine ⟨rfl, le_of_eq ?_⟩
    have hlog : n.log2 < 53 := (Nat.log2_lt hpos.ne').2 h
    have hexponent : (n.log2 : ℤ) - 52 = -((52 - n.log2 : ℕ) : ℤ) := by omega
    rw [hexponent, zpow_neg, zpow_natCast]
    push_cast
    exact mul_inv_cancel_right₀ (by positivity) _

theorem Within.ofFloat (h : Within x b) : ∃ negative m e,
    Binary64.ofFloat x = .finite negative m e ∧ (negative = true → m = 0) ∧ (m : ℚ) * 2 ^ e ≤ b := by
  rw [Within, unpack_eq_unpacked] at h
  cases hparts : Binary64.ofFloat x with
  | infinite negative => simp [hparts, Binary64.unpacked, AtMost] at h
  | notANumber => simp [hparts, Binary64.unpacked, AtMost] at h
  | finite negative m e =>
    rw [hparts, Binary64.unpacked] at h
    refine ⟨negative, m, e, rfl, ?_⟩
    split at h
    · rename_i hm
      subst hm
      exact ⟨fun _ => rfl, by simpa [AtMost] using h⟩
    · obtain ⟨hsign, hle⟩ := h
      cases negative <;> simp_all [signOf]

theorem scale_fst (e : ℤ) : ((Binary64.scale e).1 : ℚ) = 2 ^ e * (Binary64.scale e).2 := by
  simp only [Binary64.scale, Nat.pow_eq, Nat.cast_pow, Nat.cast_ofNat, ← zpow_natCast]
  rw [← zpow_add₀ (by norm_num)]
  congr 1
  omega

/-- The nearest whole number to one that is less than a half above `N`. -/
theorem Within.roundHalfUp (hx : Within x b) {N : ℕ} (hb : b < N + 1 / 2) :
    ∃ n ≤ N, Decimal.roundHalfUp x = Float.ofNat n := by
  obtain ⟨negative, m, e, hparts, hsign, hle⟩ := hx.ofFloat
  have hsigned : (if negative then -((m * (Binary64.scale e).1 : ℕ) : ℤ)
      else (m * (Binary64.scale e).1 : ℕ)) = (m * (Binary64.scale e).1 : ℕ) := by
    cases negative with
    | false => rfl
    | true => simp [hsign rfl]
  rw [Decimal.roundHalfUp, nearestInt?, hparts]
  simp only [hsigned]
  have hden : 0 < (Binary64.scale e).2 := Nat.pow_pos (by decide)
  have hbound : 2 * (m * (Binary64.scale e).1) < (2 * N + 1) * (Binary64.scale e).2 := by
    have hvalue : (m * (Binary64.scale e).1 : ℚ) < (N + 1 / 2) * (Binary64.scale e).2 := by
      rw [scale_fst, ← mul_assoc]
      have hden' : (0 : ℚ) < (Binary64.scale e).2 := by exact_mod_cast hden
      exact mul_lt_mul_of_pos_right (hle.trans_lt hb) hden'
    have hdouble : (2 * (m * (Binary64.scale e).1) : ℚ) < (2 * N + 1) * (Binary64.scale e).2 := by
      linarith
    exact_mod_cast hdouble
  refine ⟨(2 * (m * (Binary64.scale e).1) + (Binary64.scale e).2) / (2 * (Binary64.scale e).2), ?_, rfl⟩
  rw [← Nat.lt_succ_iff, Nat.div_lt_iff_lt_mul (by omega)]
  linarith

end Decimal

/-! ### Scores -/

section Scores

open Arithmetic (ofInt clamp)
open Decimal (Normal Within)

theorem normal_hundred : Normal (ofInt 100 : Float) 100 :=
  ⟨100 * 2 ^ 46, -46, by decide +kernel, by decide, by norm_num⟩

theorem normal_ten : Normal 10.0 10 :=
  ⟨10 * 2 ^ 49, -49, by decide +kernel, by decide, by norm_num⟩

theorem normal_maxScore : Normal (maxScore : Float) 10 :=
  ⟨10 * 2 ^ 49, -49, by decide +kernel, by decide, by norm_num⟩

/-- Rounding to hundredths does not leave the range of the scores. -/
theorem roundScore_le {x : Float} (hx : Within x 10) : roundScore x ≤ 10.0 := by
  have hscaled := hx.mul normal_hundred (show (10 : ℚ) * 100 < 2 ^ (10 : ℤ) by norm_num)
    (by decide) (by decide)
  obtain ⟨n, hn, hround⟩ := hscaled.roundHalfUp (N := 1000) (by norm_num)
  change Decimal.roundHalfUp (x * ofInt 100) / ofInt 100 ≤ (10.0 : Float)
  rw [hround]
  rcases Nat.lt_or_eq_of_le hn with hlt | rfl
  · have hn' : (n : ℚ) ≤ 999 := by exact_mod_cast Nat.le_of_lt_succ hlt
    have hquotient := (Decimal.within_ofNat (show n < 2 ^ 53 by omega)).div normal_hundred (t := 4)
      (by norm_num; linarith) (by decide) (by decide)
    exact hquotient.le (by norm_num; linarith) normal_ten
  · decide +kernel

theorem scoreOfCounts_le {points : Severity → Float} (hpoints : ∀ s, ProperPoints (points s))
    (issues : List Issue) : scoreOfCounts points (Counts.ofIssues issues) ≤ 10.0 := by
  have hmax : 0.0 < (maxScore : Float) := by decide +kernel
  have hdefined := Decimal.sub_defined hmax (isFinite_count 10) (deductionSum_nonneg hpoints issues)
  apply roundScore_le
  rw [clamp]
  split
  · exact (Decimal.within_ofNat (n := 0) (by decide)).mono (by norm_num)
  · rename_i hlow
    have hnonneg := Decimal.zero_le_of_not_lt hdefined fun hlt => hlow (decide_eq_true hlt)
    split
    · exact (Decimal.within_ofNat (n := 10) (by decide)).mono (by norm_num)
    · rename_i hhigh
      have hle := (Decimal.not_lt_iff_le (count_nonneg 10) hnonneg).1 fun hlt =>
        hhigh (decide_eq_true hlt)
      exact Decimal.within_of_le hnonneg hle normal_maxScore

end Scores

end CodeGrade
