import CodeGrade.Proofs.ExactValue
import Mathlib

/-!
# Numbers that need no rounding

The language's model of floating-point numbers computes with sign, mantissa and exponent, rounds the
result and packs it into 64 bits. A number whose parts are within the bounds of the format goes
through both without a change. So a whole number that is a floating-point number is turned into that
very number.

## Main definitions

* `Decimal.Canonical`: the parts of a number within the bounds of the format.
-/

namespace CodeGrade

open Float.Model Float.Model.UnpackedFloat

namespace Decimal

/-! ### Packing and unpacking -/

theorem ofBitVec_toBitVec (s : Sign) : Sign.ofBitVec s.toBitVec = s := by
  cases s <;> rfl

theorem unpackSign_packComponents {spec : Format} (s : Sign) (exponent : BitVec spec.exponentBits)
    (mantissa : BitVec spec.mantissaBitsWithoutImplicit) :
    unpackSign (packComponents spec s exponent mantissa) = s.toBitVec := by
  ext i hi
  simp [unpackSign, packComponents, BitVec.getLsbD_append, BitVec.getElem_append,
    Nat.lt_one_iff.1 hi]

/-- The number with the given fields. -/
theorem unpack_packComponents (s : Sign) (exponent : BitVec 11) (mantissa : BitVec 52) :
    UnpackedFloat.unpack Format.binary64 (packComponents Format.binary64 s exponent mantissa) =
      if exponent = -1#11 then if mantissa = 0#52 then .infinity s else .notANumber
      else if exponent = 0#11 then
        if h : mantissa = 0#52 then .zero s
        else .finite s mantissa.toNat (-1074) (by simpa [BitVec.toNat_pos, BitVec.pos_iff_ne_zero])
      else .finite s (2 ^ 52 + mantissa.toNat) (exponent.toNat - 1075) (by omega) := by
  have happend : (1#1 ++ mantissa).toNat = 2 ^ 52 + mantissa.toNat := by
    rw [BitVec.toNat_append, ← Nat.shiftLeft_add_eq_or_of_lt mantissa.isLt]
    simp [Nat.shiftLeft_eq]
  have hbias : ((Format.binary64.exponentBias : ℕ) : ℤ) +
      (Format.binary64.mantissaBitsWithoutImplicit : ℕ) = 1075 := by
    norm_num [Format.exponentBias]
  simp only [UnpackedFloat.unpack, unpackMantissa_packComponents, unpackExponent_packComponents,
    unpackSign_packComponents, ofBitVec_toBitVec, happend, hbias]
  split
  · rfl
  · split
    · rename_i hzero
      simp only [hzero]
      rfl
    · rfl

/-- The fields of a finite number. Exponents that are too large make it infinite. -/
theorem pack_finite (s : Sign) {m : ℕ} {e : ℤ} (hpos : 0 < m) :
    UnpackedFloat.pack Format.binary64 (.finite s m e hpos) =
      if 2048 ≤ (e + 1075).toNat + 1 then packComponents Format.binary64 s (-1#11) 0#52
      else if m.log2 = 52 then
        packComponents Format.binary64 s (BitVec.ofNat 11 (e + 1075).toNat) (BitVec.ofNat 52 m)
      else packComponents Format.binary64 s 0#11 (BitVec.ofNat 52 m) := by
  have hbias : e + (Format.binary64.exponentBias : ℕ) +
      (Format.binary64.mantissaBitsWithoutImplicit : ℕ) = e + 1075 := by
    norm_num [Format.exponentBias, add_assoc]
  have hbits : m.log2 + 1 = Format.binary64.mantissaBits ↔ m.log2 = 52 := by
    simp [Format.mantissaBits]
  simp only [UnpackedFloat.pack, hbias, hbits, packedInfinity]
  norm_num
  rfl

/-! ### Canonical parts -/

/-- The parts of a number within the bounds of the format. Only the smallest exponent allows for a
mantissa with fewer bits. -/
structure Canonical (mantissa : ℕ) (exponent : ℤ) : Prop where
  pos : 0 < mantissa
  lt : mantissa < 2 ^ 53
  exponent_ge : -1074 ≤ exponent
  exponent_le : exponent ≤ 971
  full : 2 ^ 52 ≤ mantissa ∨ exponent = -1074

/-- The parts of a finite number are within the bounds. -/
theorem canonical_of_finite {x : Float} {negative : Bool} {m : ℕ} {e : ℤ}
    (h : Binary64.ofFloat x = .finite negative m e) (hm : m ≠ 0) : Canonical m e := by
  rw [ofFloat_eq] at h
  split at h
  · split at h <;> cases h
  · split at h
    · injection h with _ hmantissa hexponent
      constructor <;> omega
    · injection h with _ hmantissa hexponent
      constructor <;> omega

theorem targetExponent_eq (m : ℕ) (e : ℤ) :
    Format.binary64.targetExponent (totalExponent m e) = max (m.log2 + 1 + e - 53) (-1074) := by
  simp [Format.targetExponent, totalExponent, Format.mantissaBits, Format.minExponent]

namespace Canonical

variable {m : ℕ} {e : ℤ}

theorem log2_lt (h : Canonical m e) : m.log2 < 53 := (Nat.log2_lt h.pos.ne').2 h.lt

theorem targetExponent (h : Canonical m e) :
    Format.binary64.targetExponent (totalExponent m e) = e := by
  have hlog := h.log2_lt
  have hge := h.exponent_ge
  rw [targetExponent_eq]
  rcases h.full with hfull | rfl
  · have hlog' : 52 ≤ m.log2 := (Nat.le_log2 h.pos.ne').2 hfull
    omega
  · omega

/-- Packing keeps canonical parts. -/
theorem unpack_pack (h : Canonical m e) (s : Sign) :
    UnpackedFloat.unpack Format.binary64
      (UnpackedFloat.pack Format.binary64 (.finite s m e h.pos)) = .finite s m e h.pos := by
  have hge := h.exponent_ge
  have hle := h.exponent_le
  rw [pack_finite, if_neg (by omega)]
  rcases Nat.lt_or_ge m (2 ^ 52) with hsmall | hbig
  · have hlog : m.log2 < 52 := (Nat.log2_lt h.pos.ne').2 hsmall
    have hmantissa : (BitVec.ofNat 52 m).toNat = m := Nat.mod_eq_of_lt hsmall
    have hne : BitVec.ofNat 52 m ≠ 0#52 := by
      intro hzero
      rw [hzero] at hmantissa
      exact h.pos.ne hmantissa
    have hexponent : e = -1074 := h.full.resolve_left (by omega)
    rw [if_neg (by omega), unpack_packComponents, if_neg (by decide), if_pos rfl, dif_neg hne]
    simp only [hmantissa, hexponent]
  · have hlog : m.log2 = 52 := by
      have hlog := h.log2_lt
      have hlog' : 52 ≤ m.log2 := (Nat.le_log2 h.pos.ne').2 hbig
      omega
    have hbiased : (BitVec.ofNat 11 (e + 1075).toNat).toNat = (e + 1075).toNat :=
      Nat.mod_eq_of_lt (by omega)
    have hmantissa : (BitVec.ofNat 52 m).toNat = m - 2 ^ 52 := by
      rw [BitVec.toNat_ofNat, Nat.mod_eq_sub_mod hbig]
      apply Nat.mod_eq_of_lt
      have hlt := h.lt
      omega
    have hmax : BitVec.ofNat 11 (e + 1075).toNat ≠ -1#11 := by
      intro heq
      rw [heq] at hbiased
      change 2047 = _ at hbiased
      omega
    have hzero : BitVec.ofNat 11 (e + 1075).toNat ≠ 0#11 := by
      intro heq
      rw [heq] at hbiased
      change 0 = _ at hbiased
      omega
    rw [if_pos hlog, unpack_packComponents, if_neg hmax, if_neg hzero]
    simp only [hbiased, hmantissa, UnpackedFloat.finite.injEq, true_and]
    omega

end Canonical

/-! ### Rounding -/

theorem log2_mul_two_pow {m : ℕ} (hm : m ≠ 0) (k : ℕ) : (m * 2 ^ k).log2 = m.log2 + k := by
  induction k with
  | zero => simp
  | succ k ih =>
    have hdouble : m * 2 ^ (k + 1) = 2 * (m * 2 ^ k) := by ring
    rw [hdouble, Nat.log2_two_mul (by positivity), ih, add_assoc]

theorem totalExponent_shift {m : ℕ} (hm : m ≠ 0) (k : ℕ) (e : ℤ) :
    totalExponent (m * 2 ^ k) (e - k) = totalExponent m e := by
  rw [totalExponent, totalExponent, log2_mul_two_pow hm]
  push_cast
  omega

/-- Only zeros are shifted out of a mantissa that ends in them. -/
theorem repeat_shiftRightOne (m k : ℕ) :
    k.repeat ExtendedMantissa.shiftRightOne ⟨m * 2 ^ k, false, false⟩ = ⟨m, false, false⟩ := by
  induction k generalizing m with
  | zero => simp [Nat.repeat]
  | succ k ih =>
    have hshift : m * 2 ^ (k + 1) = m * 2 * 2 ^ k := by ring
    rw [Nat.repeat, hshift, ih (m * 2)]
    simp [ExtendedMantissa.shiftRightOne]

theorem shiftToExponent_exact (m k : ℕ) (e : ℤ) :
    shiftToExponent (m * 2 ^ k) (e - k) .exact e = (⟨m, false, false⟩, e) := by
  have hshift : (e - (e - (k : ℤ))).toNat = k := by omega
  simp only [shiftToExponent, hshift, ExtendedMantissa.ofMantissaAndAccuracy]
  exact Prod.ext (repeat_shiftRightOne m k) (by simp)

/-- Shifting finds the canonical parts of a number that has some. -/
theorem Canonical.shiftToTargetExponent {m : ℕ} {e : ℤ} (h : Canonical m e) (k : ℕ) :
    UnpackedFloat.shiftToTargetExponent Format.binary64 (m * 2 ^ k) (e - k) .exact =
      (⟨m, false, false⟩, e) := by
  rw [UnpackedFloat.shiftToTargetExponent, totalExponent_shift h.pos.ne', h.targetExponent,
    shiftToExponent_exact]

/-- Rounding finds them, too. -/
theorem Canonical.roundWithAccuracy {m : ℕ} {e : ℤ} (h : Canonical m e) (s : Sign) (k : ℕ) :
    roundWithAccuracy Format.binary64 s (m * 2 ^ k) (e - k) .exact = .finite s m e h.pos := by
  have hagain := h.shiftToTargetExponent 0
  simp only [pow_zero, mul_one, Nat.cast_zero, sub_zero] at hagain
  have hrounded : (⟨m, false, false⟩ : ExtendedMantissa).roundedMantissa = m := rfl
  simp only [UnpackedFloat.roundWithAccuracy, h.shiftToTargetExponent k, hrounded, hagain,
    dif_neg h.pos.ne']

/-! ### Whole numbers -/

theorem canonical_scaled {n : ℕ} (hpos : 0 < n) (hlt : n < 2 ^ 53) :
    Canonical (n * 2 ^ (52 - n.log2)) (n.log2 - 52 : ℤ) := by
  have hlog : n.log2 < 53 := (Nat.log2_lt hpos.ne').2 hlt
  have hpow : 2 ^ n.log2 * 2 ^ (52 - n.log2) = 2 ^ 52 := by
    rw [← pow_add, Nat.add_sub_cancel' (by omega)]
  have hle : 2 ^ n.log2 ≤ n := Nat.log2_self_le hpos.ne'
  have hlt' : n < 2 ^ n.log2 * 2 := by
    rw [← pow_succ]
    exact Nat.lt_log2_self
  have hfull : 2 ^ 52 ≤ n * 2 ^ (52 - n.log2) := by
    rw [← hpow]
    exact Nat.mul_le_mul_right _ hle
  constructor
  case pos => omega
  case lt =>
    calc n * 2 ^ (52 - n.log2) < 2 ^ n.log2 * 2 * 2 ^ (52 - n.log2) :=
          Nat.mul_lt_mul_of_pos_right hlt' (by positivity)
      _ = 2 ^ 53 := by rw [mul_right_comm, hpow]; norm_num
  case exponent_ge => omega
  case exponent_le => omega
  case full => exact .inl hfull

theorem unpack_toFloat {n : ℕ} (hpos : 0 < n) (hlt : n < 2 ^ 53) :
    n.toUInt64.toFloat.toModel.unpack =
      .finite .positive (n * 2 ^ (52 - n.log2)) (n.log2 - 52) (canonical_scaled hpos hlt).pos := by
  have hlog : n.log2 < 53 := (Nat.log2_lt hpos.ne').2 hlt
  have hword : n.toUInt64.toNat = n := by
    simp
    omega
  have hcompare : compare (n : ℤ) 0 = .gt := by
    rw [Int.compare_eq_gt]
    omega
  have htarget : Format.binary64.targetExponent (totalExponent n 0) = n.log2 - 52 := by
    rw [targetExponent_eq]
    omega
  have hshift : (0 - ((n.log2 : ℤ) - 52)).toNat = 52 - n.log2 := by omega
  have hexponent : (0 : ℤ) - (52 - n.log2 : ℕ) = n.log2 - 52 := by omega
  have hround : UnpackedFloat.ofUInt64 Format.binary64 n.toUInt64 =
      .finite .positive (n * 2 ^ (52 - n.log2)) (n.log2 - 52) (canonical_scaled hpos hlt).pos := by
    rw [UnpackedFloat.ofUInt64, hword, UnpackedFloat.ofNat, UnpackedFloat.ofInt]
    simp only [UnpackedFloat.normalize, hcompare, UnpackedFloat.round, Int.toNat_natCast, htarget,
      decreaseExponent, hshift, Nat.shiftLeft_eq, hexponent]
    simpa using (canonical_scaled hpos hlt).roundWithAccuracy .positive 0
  change UnpackedFloat.unpack _ (UnpackedFloat.pack _ _) = _
  rw [hround, (canonical_scaled hpos hlt).unpack_pack]

theorem unpack_one : (Float.ofBits 0x3FF0000000000000).toModel.unpack =
    .finite .positive (2 ^ 52) (-52) (by norm_num) := by
  have hparts : Binary64.ofFloat (Float.ofBits 0x3FF0000000000000) =
      .finite false (2 ^ 52) (-52) := by decide +kernel
  rw [unpack_eq_unpacked, hparts]
  rfl

theorem unpack_mul_one {x : Float} {s : Sign} {m : ℕ} {e : ℤ} (h : Canonical m e)
    (hx : x.toModel.unpack = .finite s m e h.pos) :
    (x * Float.ofBits 0x3FF0000000000000).toModel.unpack = .finite s m e h.pos := by
  have hsign : s * .positive = s := by cases s <;> rfl
  have hexponent : e + -52 = e - (52 : ℕ) := by omega
  change UnpackedFloat.unpack _ (UnpackedFloat.pack _ (UnpackedFloat.mul _ x.toModel.unpack
    (Float.ofBits 0x3FF0000000000000).toModel.unpack)) = _
  rw [hx, unpack_one, UnpackedFloat.mul, hsign, hexponent, h.roundWithAccuracy s 52, h.unpack_pack]

/-- Numbers up to the size of a mantissa are converted by way of a machine word, which is then
multiplied by the zeroth power of ten. -/
theorem ofNat_eq_of_lt {n : ℕ} (hlt : n < 2 ^ 53) :
    Float.ofNat n = n.toUInt64.toFloat * Float.ofBits 0x3FF0000000000000 := by
  change Float.ofScientific n false 0 = _
  rw [Float.ofScientific, dif_pos ⟨hlt, by norm_num⟩]
  rfl

theorem ofNat_eq_of_ge {n : ℕ} (hge : 2 ^ 53 ≤ n) :
    Float.ofNat n = .ofModel (.ofScientific n 0) := by
  change Float.ofScientific n false 0 = _
  rw [Float.ofScientific, dif_neg (by omega)]
  rfl

/-- Numbers beyond that are multiplied exactly and rounded once. -/
theorem ofScientific_eq {n : ℕ} (hn : 0 < n) :
    UnpackedFloat.ofScientific Format.binary64 n 0 =
      roundWithAccuracy Format.binary64 .positive (n * 2 ^ 53) (-53) .exact := by
  have hhigh : ¬(0 : ℤ) > 2 ^ Format.binary64.exponentBits := by norm_num
  have hlow : ¬(0 : ℤ) < -((2 ^ Format.binary64.exponentBits : ℤ) + n.log2) := by norm_num
  have hmantissa : (n <<< Format.binary64.mantissaBits) * 10 ^ (0 : ℤ).toNat = n * 2 ^ 53 := by
    simp [Nat.shiftLeft_eq, Format.mantissaBits]
  have hexponent : -(Format.binary64.mantissaBits : ℤ) + 0 = -53 := by
    simp [Format.mantissaBits]
  simp only [UnpackedFloat.ofScientific, dif_neg hn.ne', if_neg hhigh, if_neg hlow, le_refl,
    if_true, UnpackedFloat.mul, hmantissa, hexponent]
  rfl

theorem unpack_ofNat_of_lt {n : ℕ} (hpos : 0 < n) (hlt : n < 2 ^ 53) :
    (Float.ofNat n).toModel.unpack =
      .finite .positive (n * 2 ^ (52 - n.log2)) (n.log2 - 52) (canonical_scaled hpos hlt).pos := by
  rw [ofNat_eq_of_lt hlt]
  exact unpack_mul_one (canonical_scaled hpos hlt) (unpack_toFloat hpos hlt)

theorem unpack_ofNat_of_ge {m k : ℕ} (h : Canonical m k) (hge : 2 ^ 53 ≤ m * 2 ^ k) :
    (Float.ofNat (m * 2 ^ k)).toModel.unpack = .finite .positive m k h.pos := by
  have hshift : m * 2 ^ k * 2 ^ 53 = m * 2 ^ (k + 53) := by rw [pow_add, mul_assoc]
  have hexponent : (-53 : ℤ) = k - (k + 53 : ℕ) := by omega
  rw [ofNat_eq_of_ge hge]
  change UnpackedFloat.unpack _ (UnpackedFloat.pack _ _) = _
  rw [ofScientific_eq (by omega), hshift, hexponent, h.roundWithAccuracy, h.unpack_pack]

theorem ofFloat_of_unpack {x : Float} {m : ℕ} {e : ℤ} {hm : 0 < m}
    (h : x.toModel.unpack = .finite .positive m e hm) :
    Binary64.ofFloat x = .finite false m e := by
  rw [unpack_eq_unpacked] at h
  cases hx : Binary64.ofFloat x with
  | infinite negative => simp [hx, Binary64.unpacked] at h
  | notANumber => simp [hx, Binary64.unpacked] at h
  | finite negative m' e' =>
    rw [hx, Binary64.unpacked] at h
    split at h
    · cases h
    · cases negative with
      | false =>
        simp only [signOf, UnpackedFloat.finite.injEq] at h
        rw [h.2.1, h.2.2]
      | true => simp [signOf] at h

theorem nat?_eq_some {x : Float} {n : ℕ} (h : nat? x = some n) (hn : n ≠ 0) :
    ∃ m e, Binary64.ofFloat x = .finite false m e ∧ Canonical m e ∧
      n * 2 ^ (-e).toNat = m * 2 ^ e.toNat := by
  rw [nat?] at h
  cases hx : Binary64.ofFloat x with
  | infinite negative => simp [hx] at h
  | notANumber => simp [hx] at h
  | finite negative m e =>
    simp only [hx, Binary64.scale, Nat.pow_eq, Option.ite_none_right_eq_some, Option.some.injEq,
      Bool.and_eq_true, beq_iff_eq, Bool.or_eq_true, Bool.not_eq_true'] at h
    obtain ⟨⟨hdvd, hsign⟩, hvalue⟩ := h
    have hm : m ≠ 0 := by
      rintro rfl
      simp only [Nat.zero_div, zero_mul] at hvalue
      exact hn hvalue.symm
    have hcancel := Nat.div_mul_cancel (Nat.dvd_of_mod_eq_zero hdvd)
    refine ⟨m, e, by rw [hsign.resolve_right hm], canonical_of_finite hx hm, ?_⟩
    rw [← hvalue, mul_right_comm, hcancel]

/-- The floating-point number of a whole number is the one that the whole number came from. -/
theorem ofFloat_ofNat {x : Float} {n : ℕ} (h : nat? x = some n) (hn : n ≠ 0) :
    Binary64.ofFloat (Float.ofNat n) = Binary64.ofFloat x := by
  obtain ⟨m, e, hx, hm, hvalue⟩ := nat?_eq_some h hn
  have hlt := hm.lt
  rw [hx]
  rcases Nat.lt_or_ge n (2 ^ 53) with hsmall | hlarge
  · have he : e ≤ 0 := by
      by_contra hpositive
      have hfull : 2 ^ 52 ≤ m := hm.full.resolve_right (by omega)
      have htwo : 2 ^ 1 ≤ 2 ^ e.toNat := Nat.pow_le_pow_right (by norm_num) (by omega)
      have hproduct := Nat.mul_le_mul hfull htwo
      rw [← hvalue, show (-e).toNat = 0 by omega] at hproduct
      omega
    obtain ⟨k, rfl⟩ : ∃ k : ℕ, e = -k := ⟨(-e).toNat, by omega⟩
    simp only [neg_neg, Int.toNat_natCast, Int.toNat_neg_natCast, pow_zero, mul_one] at hvalue
    have hlog : m.log2 = n.log2 + k := by rw [← hvalue, log2_mul_two_pow hn]
    have hlog' := hm.log2_lt
    have hfull : 52 ≤ m.log2 := by
      rcases hm.full with hfull | hexponent
      · exact (Nat.le_log2 hm.pos.ne').2 hfull
      · omega
    rw [ofFloat_of_unpack (unpack_ofNat_of_lt (Nat.pos_of_ne_zero hn) hsmall),
      show 52 - n.log2 = k by omega, hvalue]
    congr 1
    omega
  · have he : 0 ≤ e := by
      by_contra hnegative
      rw [show e.toNat = 0 by omega, pow_zero, mul_one] at hvalue
      have hle : n ≤ n * 2 ^ (-e).toNat := Nat.le_mul_of_pos_right n (by positivity)
      omega
    obtain ⟨k, rfl⟩ := Int.eq_ofNat_of_zero_le he
    simp only [Int.toNat_natCast, Int.toNat_neg_natCast, pow_zero, mul_one] at hvalue
    rw [hvalue] at hlarge ⊢
    exact ofFloat_of_unpack (unpack_ofNat_of_ge hm hlarge)

end Decimal

end CodeGrade
