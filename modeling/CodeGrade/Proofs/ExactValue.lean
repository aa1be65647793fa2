import CodeGrade.Score.Basic
import Mathlib

/-!
# Exact values of floating-point numbers

The library takes a floating-point number apart by arithmetic on its bits; the language's own model
of these numbers does it by cutting the bits. Both find the same parts, so comparing two numbers
says something about their exact values.

## Main definitions

* `Decimal.Binary64.unpacked`: the parts of a number in terms of the language's model.
* `Decimal.exact`: the exact value of a number.
* `Policy.Finite`: a policy whose numbers are finite.
* `Policy.exact`: a policy with the exact values of its numbers.
-/

namespace CodeGrade

open Float.Model Float.Model.UnpackedFloat

namespace Decimal

/-! ### The parts of a number -/

theorem toNat_unpackExponent (b : BitVec 64) :
    (@unpackExponent Format.binary64 b).toNat = b.toNat / 2 ^ 52 % 2048 := by
  simp [unpackExponent, BitVec.extractLsb_toNat, Nat.shiftRight_eq_div_pow]

theorem toNat_unpackMantissa (b : BitVec 64) :
    (@unpackMantissa Format.binary64 b).toNat = b.toNat % 2 ^ 52 := by
  simp [unpackMantissa, BitVec.extractLsb_toNat]

theorem toNat_unpackSign (b : BitVec 64) :
    (@unpackSign Format.binary64 b).toNat = b.toNat / 2 ^ 63 := by
  have hlt : b.toNat < 2 ^ 64 := b.isLt
  simp only [unpackSign, BitVec.toNat_cast, BitVec.extractLsb_toNat, Nat.shiftRight_eq_div_pow]
  norm_num
  omega

/-- The sign of a number. -/
def signOf (negative : Bool) : Sign := if negative then .negative else .positive

theorem ofBitVec_unpackSign (b : BitVec 64) :
    Sign.ofBitVec (@unpackSign Format.binary64 b) = signOf (b.toNat / 2 ^ 63 == 1) := by
  have hlt : b.toNat < 2 ^ 64 := b.isLt
  have hsign := toNat_unpackSign b
  have hpositive : @unpackSign Format.binary64 b = 0#1 ↔ b.toNat / 2 ^ 63 = 0 := by
    rw [← BitVec.toNat_inj, hsign]
    rfl
  simp only [Sign.ofBitVec, signOf, hpositive, beq_iff_eq]
  rcases (by omega : b.toNat / 2 ^ 63 = 0 ∨ b.toNat / 2 ^ 63 = 1) with hzero | hone
  · rw [hzero]
    rfl
  · rw [hone]
    rfl

/-- The parts of a number in terms of the language's model. -/
def Binary64.unpacked : Binary64 → UnpackedFloat
  | finite negative mantissa exponent =>
    if h : mantissa = 0 then .zero (signOf negative)
    else .finite (signOf negative) mantissa exponent (Nat.pos_of_ne_zero h)
  | infinite negative => .infinity (signOf negative)
  | notANumber => .notANumber

theorem ofFloat_eq (x : Float) : Binary64.ofFloat x =
    if x.toBits.toNat / 2 ^ 52 % 2048 = 2047 then
      if x.toBits.toNat % 2 ^ 52 = 0 then .infinite (x.toBits.toNat / 2 ^ 63 == 1)
      else .notANumber
    else if x.toBits.toNat / 2 ^ 52 % 2048 = 0 then
      .finite (x.toBits.toNat / 2 ^ 63 == 1) (x.toBits.toNat % 2 ^ 52) (-1074)
    else
      .finite (x.toBits.toNat / 2 ^ 63 == 1) (x.toBits.toNat % 2 ^ 52 + 2 ^ 52)
        ((x.toBits.toNat / 2 ^ 52 % 2048 : ℕ) - 1075) := by
  simp only [Binary64.ofFloat, beq_iff_eq]
  rfl

theorem unpack_eq_unpacked (x : Float) :
    x.toModel.unpack = (Binary64.ofFloat x).unpacked := by
  have hexponent := toNat_unpackExponent x.toModel.toBits.toBitVec
  have hmantissa := toNat_unpackMantissa x.toModel.toBits.toBitVec
  have hsign := ofBitVec_unpackSign x.toModel.toBits.toBitVec
  have hnormal : (1#1 ++ @unpackMantissa Format.binary64 x.toModel.toBits.toBitVec).toNat =
      x.toBits.toNat % 2 ^ 52 + 2 ^ 52 := by
    rw [BitVec.toNat_append, ← Nat.shiftLeft_add_eq_or_of_lt (BitVec.isLt _), hmantissa]
    exact Nat.add_comm _ _
  have hall : @unpackExponent Format.binary64 x.toModel.toBits.toBitVec = -1#_ ↔
      x.toBits.toNat / 2 ^ 52 % 2048 = 2047 := by
    rw [← BitVec.toNat_inj, hexponent]
    rfl
  have hzero : @unpackExponent Format.binary64 x.toModel.toBits.toBitVec = 0#_ ↔
      x.toBits.toNat / 2 ^ 52 % 2048 = 0 := by
    rw [← BitVec.toNat_inj, hexponent]
    rfl
  have hempty : @unpackMantissa Format.binary64 x.toModel.toBits.toBitVec = 0#_ ↔
      x.toBits.toNat % 2 ^ 52 = 0 := by
    rw [← BitVec.toNat_inj, hmantissa]
    rfl
  have hbits : x.toModel.toBits.toBitVec.toNat = x.toBits.toNat := rfl
  rw [hbits] at hsign
  simp only [Float.Model.unpack, UnpackedFloat.unpack, hall, hzero, hempty, hsign, hnormal]
  have hbias : ((Format.binary64.exponentBias : ℕ) : ℤ) +
      (Format.binary64.mantissaBitsWithoutImplicit : ℕ) = 1075 := by
    norm_num [Format.exponentBias]
  rw [ofFloat_eq]
  split
  · split <;> rfl
  · split
    · rename_i hE
      split
      · rename_i hF
        simp only [Binary64.unpacked, dif_pos hF]
      · rename_i hF
        simp only [Binary64.unpacked, dif_neg hF, UnpackedFloat.finite.injEq, true_and]
        refine ⟨hmantissa, ?_⟩
        rw [hexponent, hbits, hE, hbias]
        norm_num
    · have hpos : x.toBits.toNat % 2 ^ 52 + 2 ^ 52 ≠ 0 := by omega
      simp only [Binary64.unpacked, dif_neg hpos, UnpackedFloat.finite.injEq, true_and]
      rw [hexponent, hbits, hbias]

/-! ### Exact values -/

/-- The exact value of a number; zero if it is infinite or undefined. -/
def exact (x : Float) : ℚ := ((Binary64.ofFloat x).value?).getD 0

theorem lt_iff_unpacked (x y : Float) :
    x < y ↔ (Binary64.ofFloat x).unpacked.lt (Binary64.ofFloat y).unpacked = true := by
  rw [← unpack_eq_unpacked, ← unpack_eq_unpacked]
  change decide (x.toModel.unpack.lt y.toModel.unpack = true) = true ↔ _
  rw [decide_eq_true_eq]

theorem le_iff_unpacked (x y : Float) :
    x ≤ y ↔ (Binary64.ofFloat x).unpacked.le (Binary64.ofFloat y).unpacked = true := by
  rw [← unpack_eq_unpacked, ← unpack_eq_unpacked]
  change decide (x.toModel.unpack.le y.toModel.unpack = true) = true ↔ _
  rw [decide_eq_true_eq]

theorem unpacked_zero : (Binary64.ofFloat 0.0).unpacked = .zero .positive := by
  have hzero : Binary64.ofFloat 0.0 = .finite false 0 (-1074) := by decide +kernel
  rw [hzero]
  rfl

/-- A number with a negative value is negative. -/
theorem lt_zero_of_exact_neg {x : Float} (h : exact x < 0) : x < 0.0 ∧ ¬0.0 < x := by
  rw [lt_iff_unpacked, lt_iff_unpacked, unpacked_zero]
  rw [exact] at h
  cases hx : Binary64.ofFloat x with
  | infinite negative => simp [hx, Binary64.value?] at h
  | notANumber => simp [hx, Binary64.value?] at h
  | finite negative mantissa exponent =>
    have hmagnitude : 0 ≤ mkRat (mantissa * (Binary64.scale exponent).1 : ℕ)
        (Binary64.scale exponent).2 := Rat.mkRat_nonneg (Int.natCast_nonneg _) _
    simp only [hx, Binary64.value?, Option.getD_some] at h
    cases negative with
    | false => exact absurd h (by simpa using hmagnitude)
    | true =>
      have hmantissa : mantissa ≠ 0 := by
        rintro rfl
        simp at h
      simp only [Binary64.unpacked, dif_neg hmantissa]
      exact ⟨rfl, Bool.false_ne_true⟩

theorem exact_nonneg_of_pos {x : Float} (h : 0.0 < x) : 0 ≤ exact x :=
  not_lt.1 fun hneg => (lt_zero_of_exact_neg hneg).2 h

theorem exact_nonneg_of_not_lt {x : Float} (h : ¬x < 0.0) : 0 ≤ exact x :=
  not_lt.1 fun hneg => h (lt_zero_of_exact_neg hneg).1

/-- Numbers between zero and one are finite. -/
theorem isFinite_of_range {x : Float} (hpos : 0.0 < x) (hle : x ≤ 1.0) : isFinite x = true := by
  rw [lt_iff_unpacked, unpacked_zero] at hpos
  have hone : Binary64.ofFloat 1.0 = .finite false (2 ^ 52) (-52) := by decide +kernel
  rw [le_iff_unpacked, hone] at hle
  rw [isFinite]
  cases hx : Binary64.ofFloat x with
  | finite negative mantissa exponent => rfl
  | infinite negative =>
    rw [hx] at hpos hle
    cases negative with
    | false => cases hle
    | true => cases hpos
  | notANumber =>
    rw [hx] at hpos
    cases hpos

end Decimal

/-- The numbers of the policy are finite, so all of them have an exact value. -/
structure Policy.Finite (policy : Policy Float) : Prop where
  weights : ∀ w ∈ policy.categories, Decimal.isFinite w.weight = true
  deductions : ∀ category severity, Decimal.isFinite (policy.deduction category severity) = true

/-- The policy with the exact values of its numbers. -/
def Policy.exact (policy : Policy Float) : Policy ℚ where
  categories := policy.categories.map fun w => ⟨w.category, Decimal.exact w.weight⟩
  deduction category severity := Decimal.exact (policy.deduction category severity)

end CodeGrade
