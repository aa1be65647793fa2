import CodeGrade.Proofs.Accepting
import CodeGrade.Proofs.Packing
import CodeGrade.Score.Verdict
import Mathlib

/-!
# Scores are defined

Floating-point arithmetic can leave the numbers: zero times infinity is undefined, and an undefined
number is neither below a bound nor above it. Scores never get there. Counts are finite, the points
and the weights of an accepted configuration are finite and not negative, and with such numbers
every step of scoring gives a number that is not negative.

## Main definitions

* `Decimal.sign?`: the sign of a number, unless it is undefined.
* `Decimal.Nonneg`: a number that is neither negative nor undefined.
-/

namespace CodeGrade

namespace Decimal

open Float.Model Float.Model.UnpackedFloat

/-! ### Signs -/

/-- The sign of a number, unless it is undefined. -/
def sign? : UnpackedFloat → Option Sign
  | .infinity s => some s
  | .zero s => some s
  | .finite s _ _ _ => some s
  | .notANumber => none

theorem sign?_packComponents {s : Sign} {exponent : BitVec 11} {mantissa : BitVec 52}
    (h : exponent = -1#11 → mantissa = 0#52) :
    sign? (UnpackedFloat.unpack Format.binary64
      (packComponents Format.binary64 s exponent mantissa)) = some s := by
  rw [unpack_packComponents]
  split
  · rename_i hmax
    rw [if_pos (h hmax)]
    rfl
  · split
    · split <;> rfl
    · rfl

/-- Packing changes no sign, and makes no number undefined. -/
theorem sign?_unpack_pack (u : UnpackedFloat) :
    sign? (UnpackedFloat.unpack Format.binary64 (UnpackedFloat.pack Format.binary64 u)) =
      sign? u := by
  cases u with
  | notANumber => rfl
  | infinity s => exact sign?_packComponents fun _ => rfl
  | zero s => exact sign?_packComponents fun _ => rfl
  | finite s m e hm =>
    rw [pack_finite]
    split
    · exact sign?_packComponents fun _ => rfl
    · rename_i hexponent
      split
      · refine sign?_packComponents fun hmax => ?_
        have hbiased := congrArg BitVec.toNat hmax
        rw [BitVec.toNat_ofNat, Nat.mod_eq_of_lt (by omega)] at hbiased
        change _ = 2047 at hbiased
        omega
      · exact sign?_packComponents fun hmax => absurd hmax (by decide)

theorem sign?_roundWithAccuracy (s : Sign) (m : ℕ) (e : ℤ) (accuracy : Accuracy) :
    sign? (roundWithAccuracy Format.binary64 s m e accuracy) = some s := by
  simp only [UnpackedFloat.roundWithAccuracy]
  split <;> rfl

theorem isSome_sign?_normalize (n e : ℤ) (s : Sign) :
    (sign? (UnpackedFloat.normalize Format.binary64 n e s)).isSome = true := by
  rw [UnpackedFloat.normalize]
  split
  · rw [UnpackedFloat.round, sign?_roundWithAccuracy]
    rfl
  · rfl
  · rw [UnpackedFloat.round, sign?_roundWithAccuracy]
    rfl

/-! ### Numbers that are not negative -/

/-- The number is neither negative nor undefined. Both zeros are such numbers. -/
def Nonneg : UnpackedFloat → Prop
  | .infinity s => s = .positive
  | .finite s _ _ _ => s = .positive
  | .zero _ => True
  | .notANumber => False

theorem nonneg_of_sign? {u : UnpackedFloat} (h : sign? u = some .positive) : Nonneg u := by
  cases u with
  | infinity s => exact Option.some.inj h
  | zero s => trivial
  | finite s m e hm => exact Option.some.inj h
  | notANumber => cases h

theorem nonneg_roundWithAccuracy (m : ℕ) (e : ℤ) (accuracy : Accuracy) :
    Nonneg (roundWithAccuracy Format.binary64 .positive m e accuracy) :=
  nonneg_of_sign? (sign?_roundWithAccuracy _ _ _ _)

theorem nonneg_normalize {n : ℤ} (hn : 0 ≤ n) (e : ℤ) (s : Sign) :
    Nonneg (UnpackedFloat.normalize Format.binary64 n e s) := by
  rw [UnpackedFloat.normalize]
  split
  · rename_i hlt
    rw [Int.compare_eq_lt] at hlt
    omega
  · trivial
  · exact nonneg_roundWithAccuracy _ _ _

namespace Nonneg

variable {a b : UnpackedFloat}

theorem pack (h : Nonneg a) :
    Nonneg (UnpackedFloat.unpack Format.binary64 (UnpackedFloat.pack Format.binary64 a)) := by
  have hsign := sign?_unpack_pack a
  cases a with
  | notANumber => cases h
  | infinity s =>
    obtain rfl : s = .positive := h
    exact nonneg_of_sign? hsign
  | zero s =>
    change Nonneg (UnpackedFloat.unpack _ (packComponents Format.binary64 s 0#11 0#52))
    rw [unpack_packComponents, if_neg (by decide), if_pos rfl, dif_pos rfl]
    trivial
  | finite s m e hm =>
    obtain rfl : s = .positive := h
    exact nonneg_of_sign? hsign

theorem add (ha : Nonneg a) (hb : Nonneg b) : Nonneg (UnpackedFloat.add Format.binary64 a b) := by
  cases a with
  | notANumber => cases ha
  | infinity s =>
    obtain rfl : s = .positive := ha
    cases b with
    | notANumber => cases hb
    | infinity t =>
      obtain rfl : t = .positive := hb
      rfl
    | zero t => rfl
    | finite t m e hm => rfl
  | zero s =>
    cases b with
    | notANumber => cases hb
    | infinity t => exact hb
    | zero t =>
      rw [UnpackedFloat.add]
      split <;> trivial
    | finite t m e hm => exact hb
  | finite s m e hm =>
    obtain rfl : s = .positive := ha
    cases b with
    | notANumber => cases hb
    | infinity t => exact hb
    | zero t => rfl
    | finite t m' e' hm' =>
      obtain rfl : t = .positive := hb
      apply nonneg_normalize
      exact Int.add_nonneg (Int.natCast_nonneg _) (Int.natCast_nonneg _)

theorem mul (ha : Nonneg a) {m : ℕ} {e : ℤ} (hm : 0 < m) :
    Nonneg (UnpackedFloat.mul Format.binary64 a (.finite .positive m e hm)) := by
  cases a with
  | notANumber => cases ha
  | infinity s =>
    obtain rfl : s = .positive := ha
    rfl
  | zero s => trivial
  | finite s m' e' hm' =>
    obtain rfl : s = .positive := ha
    exact nonneg_roundWithAccuracy _ _ _

theorem div (ha : Nonneg a) {m : ℕ} {e : ℤ} (hm : 0 < m) :
    Nonneg (UnpackedFloat.div Format.binary64 a (.finite .positive m e hm)) := by
  cases a with
  | notANumber => cases ha
  | infinity s =>
    obtain rfl : s = .positive := ha
    rfl
  | zero s => trivial
  | finite s m' e' hm' =>
    obtain rfl : s = .positive := ha
    exact nonneg_roundWithAccuracy _ _ _

/-- Nothing undefined comes of taking such a number from a finite one. -/
theorem isSome_sign?_sub (hb : Nonneg b) (s : Sign) {m : ℕ} {e : ℤ} (hm : 0 < m) :
    (sign? (UnpackedFloat.sub Format.binary64 (.finite s m e hm) b)).isSome = true := by
  cases b with
  | notANumber => cases hb
  | infinity t => rfl
  | zero t => rfl
  | finite t m' e' hm' => exact isSome_sign?_normalize _ _ _

end Nonneg

/-! ### Comparing -/

/-- Two numbers compare in one way, whichever is named first. -/
theorem compare_swap (a b : UnpackedFloat) : b.compare a = (a.compare b).map Ordering.swap := by
  have hparts : ∀ (m m' : ℕ) (e e' : ℤ), (compare e' e).then (compare m' m) =
      ((compare e e').then (compare m m')).swap := by
    intro m m' e e'
    rw [Ordering.swap_then, ← Std.OrientedCmp.eq_swap, ← Std.OrientedCmp.eq_swap]
  cases a with
  | notANumber => cases b <;> rfl
  | infinity s =>
    cases b with
    | infinity t => cases s <;> cases t <;> rfl
    | _ => cases s <;> rfl
  | zero s =>
    cases b with
    | infinity t => cases t <;> rfl
    | finite t m e hm => cases t <;> rfl
    | _ => rfl
  | finite s m e hm =>
    cases b with
    | infinity t => cases t <;> rfl
    | finite t m' e' hm' =>
      cases s <;> cases t <;> simp [UnpackedFloat.compare, hparts m m' e e']
    | _ => cases s <;> rfl

theorem Nonneg.isSome_compare {a b : UnpackedFloat} (ha : Nonneg a) (hb : Nonneg b) :
    (a.compare b).isSome = true := by
  fun_cases UnpackedFloat.compare a b
  case case1 => cases ha
  case case2 => cases hb
  all_goals rfl

/-! ### Floating-point numbers -/

variable {x y z : Float}

theorem zero_le_iff : 0.0 ≤ x ↔ Nonneg x.toModel.unpack := by
  rw [le_iff_unpacked, unpacked_zero, ← unpack_eq_unpacked]
  cases x.toModel.unpack with
  | infinity s => cases s <;> simp [Nonneg, UnpackedFloat.le, UnpackedFloat.compare]
  | finite s m e hm => cases s <;> simp [Nonneg, UnpackedFloat.le, UnpackedFloat.compare]
  | zero s => simp [Nonneg, UnpackedFloat.le, UnpackedFloat.compare]
  | notANumber => simp [Nonneg, UnpackedFloat.le, UnpackedFloat.compare]

theorem zero_le_of_not_lt (hdefined : (sign? x.toModel.unpack).isSome = true)
    (h : ¬x < 0.0) : 0.0 ≤ x := by
  rw [lt_iff_unpacked, unpacked_zero, ← unpack_eq_unpacked] at h
  rw [zero_le_iff]
  cases hx : x.toModel.unpack with
  | infinity s => cases s <;> simp_all [Nonneg, UnpackedFloat.lt, UnpackedFloat.compare]
  | finite s m e hm => cases s <;> simp_all [Nonneg, UnpackedFloat.lt, UnpackedFloat.compare]
  | zero s => trivial
  | notANumber => simp [hx, sign?] at hdefined

/-- A finite number is zero or has a positive mantissa. -/
theorem unpack_of_isFinite (h : isFinite x = true) :
    (∃ s, x.toModel.unpack = .zero s) ∨ ∃ s m e hm, x.toModel.unpack = .finite s m e hm := by
  rw [isFinite] at h
  rw [unpack_eq_unpacked]
  cases hx : Binary64.ofFloat x with
  | infinite negative => simp [hx] at h
  | notANumber => simp [hx] at h
  | finite negative m e =>
    rw [Binary64.unpacked]
    split
    · exact .inl ⟨_, rfl⟩
    · rename_i hm
      exact .inr ⟨_, m, e, Nat.pos_of_ne_zero hm, rfl⟩

theorem add_nonneg (hx : 0.0 ≤ x) (hy : 0.0 ≤ y) : 0.0 ≤ x + y := by
  rw [zero_le_iff] at hx hy ⊢
  exact (hx.add hy).pack

/-- A positive finite number has a positive mantissa. -/
theorem unpack_of_pos (h : 0.0 < y) (hfinite : isFinite y = true) :
    ∃ m e hm, y.toModel.unpack = .finite .positive m e hm := by
  rw [lt_iff_unpacked, unpacked_zero, ← unpack_eq_unpacked] at h
  rcases unpack_of_isFinite hfinite with ⟨s, hs⟩ | ⟨s, m, e, hm, hs⟩
  · simp [hs, UnpackedFloat.lt, UnpackedFloat.compare] at h
  · cases s with
    | positive => exact ⟨m, e, hm, hs⟩
    | negative => simp [hs, UnpackedFloat.lt, UnpackedFloat.compare] at h

theorem mul_nonneg_of_pos (hx : 0.0 ≤ x) (hy : 0.0 < y) (hfinite : isFinite y = true) :
    0.0 ≤ x * y := by
  obtain ⟨m, e, hm, hunpack⟩ := unpack_of_pos hy hfinite
  rw [zero_le_iff] at hx ⊢
  have hproduct := (hx.mul (e := e) hm).pack
  rw [← hunpack] at hproduct
  exact hproduct

theorem div_nonneg_of_pos (hx : 0.0 ≤ x) (hy : 0.0 < y) (hfinite : isFinite y = true) :
    0.0 ≤ x / y := by
  obtain ⟨m, e, hm, hunpack⟩ := unpack_of_pos hy hfinite
  rw [zero_le_iff] at hx ⊢
  have hquotient := (hx.div (e := e) hm).pack
  rw [← hunpack] at hquotient
  exact hquotient

/-- Zero, too, may be a second factor where the first one is finite. -/
theorem mul_nonneg (hx : 0.0 ≤ x) (hfinite : isFinite x = true) (hy : ¬y < 0.0)
    (hfinite' : isFinite y = true) : 0.0 ≤ x * y := by
  rw [lt_iff_unpacked, unpacked_zero, ← unpack_eq_unpacked] at hy
  rw [zero_le_iff] at hx ⊢
  have hproduct : Nonneg (UnpackedFloat.mul Format.binary64 x.toModel.unpack y.toModel.unpack) := by
    rcases unpack_of_isFinite hfinite' with ⟨t, ht⟩ | ⟨t, m, e, hm, ht⟩
    · rcases unpack_of_isFinite hfinite with ⟨s, hs⟩ | ⟨s, m, e, hm, hs⟩ <;> rw [hs, ht] <;> trivial
    · rw [ht] at hy ⊢
      cases t with
      | positive => exact hx.mul hm
      | negative => exact absurd rfl hy
  exact hproduct.pack

theorem sub_defined (hx : 0.0 < x) (hfinite : isFinite x = true) (hy : 0.0 ≤ y) :
    (sign? (x - y).toModel.unpack).isSome = true := by
  obtain ⟨m, e, hm, hunpack⟩ := unpack_of_pos hx hfinite
  rw [zero_le_iff] at hy
  change (sign? (UnpackedFloat.unpack _ (UnpackedFloat.pack _
    (UnpackedFloat.sub _ x.toModel.unpack y.toModel.unpack)))).isSome = true
  rw [sign?_unpack_pack, hunpack]
  exact hy.isSome_sign?_sub .positive hm

/-- Of two numbers that are not negative, one is below the other or not above it. -/
theorem not_lt_iff_le (hx : 0.0 ≤ x) (hy : 0.0 ≤ y) : ¬x < y ↔ y ≤ x := by
  obtain ⟨order, horder⟩ := Option.isSome_iff_exists.1
    ((zero_le_iff.1 hx).isSome_compare (zero_le_iff.1 hy))
  rw [lt_iff_unpacked, le_iff_unpacked, ← unpack_eq_unpacked, ← unpack_eq_unpacked,
    UnpackedFloat.lt, UnpackedFloat.le, compare_swap x.toModel.unpack, horder]
  cases order <;> decide

/-- Numbers with one exponent are ordered as their mantissas are. -/
theorem lt_of_lt_of_mantissa_le {m m' : ℕ} {e : ℤ} (hm : 0 < m) (hle : m ≤ m')
    (hy : Binary64.ofFloat y = .finite false m e) (hz : Binary64.ofFloat z = .finite false m' e)
    (h : x < y) : x < z := by
  rw [lt_iff_unpacked, ← unpack_eq_unpacked, hy, Binary64.unpacked, dif_neg (by omega)] at h
  rw [lt_iff_unpacked, ← unpack_eq_unpacked, hz, Binary64.unpacked, dif_neg (by omega)]
  cases hx : x.toModel.unpack with
  | notANumber => simp [hx, UnpackedFloat.lt, UnpackedFloat.compare] at h
  | infinity s => cases s <;> simp_all [signOf, UnpackedFloat.lt, UnpackedFloat.compare]
  | zero s => rfl
  | finite s k i hk =>
    cases s with
    | negative => rfl
    | positive =>
      simp only [hx, signOf, Bool.false_eq_true, if_false, UnpackedFloat.lt, UnpackedFloat.compare,
        beq_iff_eq, Option.some.injEq, Ordering.then_eq_lt, Int.compare_eq_lt, Nat.compare_eq_lt,
        Std.LawfulEqCmp.compare_eq_iff_eq] at h ⊢
      omega

/-! ### Whole numbers -/

theorem ofNat_nonneg (n : ℕ) : 0.0 ≤ Float.ofNat n := by
  rcases Nat.eq_zero_or_pos n with rfl | hpos
  · decide +kernel
  · rw [zero_le_iff]
    rcases Nat.lt_or_ge n (2 ^ 53) with hlt | hge
    · rw [unpack_ofNat_of_lt hpos hlt]
      rfl
    · rw [ofNat_eq_of_ge hge]
      change Nonneg (UnpackedFloat.unpack _ (UnpackedFloat.pack _ _))
      rw [ofScientific_eq hpos]
      exact (nonneg_roundWithAccuracy _ _ _).pack

theorem isFinite_ofNat {n : ℕ} (hle : n ≤ 2 ^ 53) : isFinite (Float.ofNat n) = true := by
  rcases Nat.eq_zero_or_pos n with rfl | hpos
  · decide +kernel
  · rcases Nat.lt_or_eq_of_le hle with hlt | rfl
    · rw [isFinite, ofFloat_of_unpack (unpack_ofNat_of_lt hpos hlt)]
    · decide +kernel

theorem ofInt_nonneg {n : ℤ} (hn : 0 ≤ n) : 0.0 ≤ Float.ofInt n := by
  obtain ⟨k, rfl⟩ := Int.eq_ofNat_of_zero_le hn
  exact ofNat_nonneg k

theorem roundHalfUp_nonneg (hx : 0.0 ≤ x) : 0.0 ≤ roundHalfUp x := by
  rw [roundHalfUp, nearestInt?]
  cases hparts : Binary64.ofFloat x with
  | infinite negative => simpa using hx
  | notANumber => simpa using hx
  | finite negative m e =>
    have hsigned : 0 ≤ if negative then -((m * (Binary64.scale e).1 : ℕ) : ℤ)
        else (m * (Binary64.scale e).1 : ℕ) := by
      rw [zero_le_iff, unpack_eq_unpacked, hparts, Binary64.unpacked] at hx
      cases negative with
      | false => exact Int.natCast_nonneg _
      | true =>
        split at hx
        · rename_i hm
          simp [hm]
        · cases hx
    apply ofInt_nonneg
    apply Int.ediv_nonneg
    · exact Int.add_nonneg (Int.mul_nonneg (by decide) hsigned) (Int.natCast_nonneg _)
    · exact Int.mul_nonneg (by decide) (Int.natCast_nonneg _)

end Decimal

/-! ### Scores -/

section Scores

open Arithmetic (ofInt clamp smaller larger)
open Decimal (isFinite)

theorem count_nonneg (n : ℕ) : 0.0 ≤ (ofInt (n : ℤ) : Float) := by
  apply Decimal.ofInt_nonneg
  split
  · exact Int.natCast_nonneg n
  · decide

/-- Counting never leaves the finite numbers. -/
theorem isFinite_count (n : ℕ) : isFinite (ofInt (n : ℤ) : Float) = true := by
  change isFinite (Float.ofInt (if (n : ℤ) < Arithmetic.countLimit then n else _)) = true
  split
  · rename_i hlt
    apply Decimal.isFinite_ofNat
    rw [Arithmetic.countLimit] at hlt
    omega
  · decide +kernel

theorem clamp_nonneg {low high x : Float} (hlow : 0.0 ≤ low) (hhigh : 0.0 ≤ high)
    (hx : ¬x < low → 0.0 ≤ x) : 0.0 ≤ clamp low high x := by
  rw [clamp]
  split
  · exact hlow
  · rename_i hge
    split
    · exact hhigh
    · exact hx fun hlt => hge (decide_eq_true hlt)

theorem roundScore_nonneg {x : Float} (hx : 0.0 ≤ x) : 0.0 ≤ roundScore x := by
  have hpos : 0.0 < (ofInt 100 : Float) := by decide +kernel
  have hfinite := isFinite_count 100
  have hscaled := Decimal.mul_nonneg_of_pos hx hpos hfinite
  exact Decimal.div_nonneg_of_pos (Decimal.roundHalfUp_nonneg hscaled) hpos hfinite

theorem deductionSum_nonneg {points : Severity → Float} (hpoints : ∀ s, ProperPoints (points s))
    (issues : List Issue) : 0.0 ≤ deductionSum points (Counts.ofIssues issues) := by
  have hterm : ∀ s, 0.0 ≤ ofInt ((Counts.ofIssues issues).get s) * points s := by
    intro s
    rw [Counts.get_ofIssues]
    exact Decimal.mul_nonneg (count_nonneg _) (isFinite_count _) (hpoints s).not_neg
      (hpoints s).isFinite
  exact Decimal.add_nonneg (Decimal.add_nonneg (Decimal.add_nonneg (Decimal.add_nonneg
    (count_nonneg 0) (hterm .critical)) (hterm .high)) (hterm .medium)) (hterm .low)

/-- The deductions may be infinite, but what they leave of the best score is defined. -/
theorem scoreOfCounts_nonneg {points : Severity → Float} (hpoints : ∀ s, ProperPoints (points s))
    (issues : List Issue) : 0.0 ≤ scoreOfCounts points (Counts.ofIssues issues) := by
  have hmax : 0.0 < (maxScore : Float) := by decide +kernel
  have hdefined := Decimal.sub_defined hmax (isFinite_count 10) (deductionSum_nonneg hpoints issues)
  apply roundScore_nonneg
  apply clamp_nonneg (count_nonneg 0) (count_nonneg 10)
  intro hnonneg
  exact Decimal.zero_le_of_not_lt hdefined hnonneg

section Overall

variable {scores : List (CategoryScore Float)}

theorem weightedSum_nonneg (hscores : ∀ s ∈ scores, 0.0 ≤ s.score)
    (hweights : ∀ s ∈ scores, 0.0 < s.weight ∧ isFinite s.weight = true) :
    0.0 ≤ weightedSum scores := by
  refine List.foldlRecOn scores _ (count_nonneg 0) fun sum hsum s hs => ?_
  obtain ⟨hpos, hfinite⟩ := hweights s hs
  exact Decimal.add_nonneg hsum (Decimal.mul_nonneg_of_pos (hscores s hs) hpos hfinite)

theorem overallScore_nonneg (hscores : ∀ s ∈ scores, 0.0 ≤ s.score)
    (hweights : ∀ s ∈ scores, 0.0 < s.weight ∧ isFinite s.weight = true) :
    0.0 ≤ overallScore scores := by
  have hsum := roundScore_nonneg (weightedSum_nonneg hscores hweights)
  cases scores with
  | nil => exact count_nonneg 10
  | cons first rest =>
    have hfirst := hscores first List.mem_cons_self
    have hrest : ∀ s ∈ rest, 0.0 ≤ s.score := fun s hs => hscores s (List.mem_cons_of_mem first hs)
    apply clamp_nonneg (count_nonneg 0) (count_nonneg 10)
    intro _
    apply clamp_nonneg
    · refine List.foldlRecOn rest _ hfirst fun low hlow s hs => ?_
      rw [smaller]
      split
      · exact hrest s hs
      · exact hlow
    · refine List.foldlRecOn rest _ hfirst fun high hhigh s hs => ?_
      rw [larger]
      split
      · exact hrest s hs
      · exact hhigh
    · exact fun _ => hsum

end Overall

end Scores

/-- Under an accepted configuration every overall score is a number, and none is negative. -/
theorem Catalog.overallScore_nonneg {config : Option Json} {rules : List Rule} {catalog : Catalog}
    (h : Catalog.build config rules = .ok catalog) (issues : List Issue) :
    0.0 ≤ overallScore (scoreCategories catalog.policy issues) := by
  obtain ⟨-, c, hvalid, hproblems, rfl⟩ := Catalog.build_eq_ok.1 h
  apply CodeGrade.overallScore_nonneg
  · intro s hs
    obtain ⟨w, -, rfl⟩ := List.mem_map.1 hs
    exact scoreOfCounts_nonneg (Configuration.resolvedDeduction_proper hvalid w.category) _
  · intro s hs
    obtain ⟨w, hw, rfl⟩ := List.mem_map.1 hs
    obtain ⟨hpos, hle⟩ := Configuration.resolvedWeights_range hproblems w hw
    exact ⟨hpos, Decimal.isFinite_of_range hpos hle⟩

end CodeGrade
