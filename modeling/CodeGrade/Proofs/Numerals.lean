import CodeGrade.LineNumber
import CodeGrade.Proofs.Lines

/-!
# What numbers are written with

Every number has a text of letters, digits, signs and points, whichever way it is written: as a
count, as the number of a line, shortest or with fixed places. So a number never disturbs the
structure of the text around it.

## Main definitions

* `Numeral`: a text of letters, digits, signs and points.
-/

namespace CodeGrade

/-- Whether the character occurs in the text of a number. -/
def isNumeralChar (c : Char) : Bool := c.isAlphanum || c = '+' || c = '-' || c = '.'

/-- The text consists of letters, digits, signs and points. -/
def Numeral (text : String) : Prop := ∀ c ∈ text.toList, isNumeralChar c = true

instance (text : String) : Decidable (Numeral text) :=
  List.decidableBAll _ _

namespace Numeral

theorem append {a b : String} (ha : Numeral a) (hb : Numeral b) : Numeral (a ++ b) := by
  intro c hc
  rw [String.toList_append] at hc
  rcases List.mem_append.1 hc with hc | hc
  · exact ha c hc
  · exact hb c hc

theorem ofList {text : List Char} (h : ∀ c ∈ text, isNumeralChar c = true) :
    Numeral (String.ofList text) := by
  rwa [Numeral, String.toList_ofList]

theorem not_mem {text : String} (h : Numeral text) {c : Char} (hc : isNumeralChar c = false) :
    c ∉ text.toList :=
  fun hmem => Bool.false_ne_true (hc.symm.trans (h c hmem))

theorem unbroken {text : String} (h : Numeral text) : Unbroken text.toList := by
  intro c hc
  apply isLineEnd_eq_false.2
  constructor
  · rintro rfl
    exact h.not_mem (by decide) hc
  · rintro rfl
    exact h.not_mem (by decide) hc

theorem ite {p : Prop} [Decidable p] {a b : String} (ha : Numeral a) (hb : Numeral b) :
    Numeral (if p then a else b) := by
  split
  · exact ha
  · exact hb

end Numeral

/-! ### Whole numbers -/

theorem isNumeralChar_of_isDigit {c : Char} (h : c.isDigit = true) : isNumeralChar c = true := by
  simp [isNumeralChar, Char.isAlphanum, h]

theorem isNumeralChar_of_mem_toDigits {n : ℕ} {c : Char} (h : c ∈ Nat.toDigits 10 n) :
    isNumeralChar c = true :=
  isNumeralChar_of_isDigit (Nat.isDigit_of_mem_toDigits (by decide) (by decide) h)

theorem numeral_nat (n : ℕ) : Numeral (toString n) := by
  rw [Nat.toString_eq_repr, Nat.repr_eq_ofList_toDigits]
  exact .ofList fun c hc => isNumeralChar_of_mem_toDigits hc

theorem numeral_int (n : ℤ) : Numeral (toString n) := by
  cases n with
  | ofNat n => exact numeral_nat n
  | negSucc n => exact .append (by decide) (numeral_nat (n + 1))

/-! ### Decimals -/

namespace Decimal

theorem numeral_zeros (n : ℕ) : Numeral (zeros n) := by
  refine .ofList fun c hc => ?_
  rw [List.eq_of_mem_replicate hc]
  decide

theorem numeral_digits (d : Digits) : Numeral d.text := by
  have hdigits : ∀ c ∈ Nat.toDigits 10 d.digits, isNumeralChar c = true :=
    fun c hc => isNumeralChar_of_mem_toDigits hc
  have hpower (e : ℤ) : Numeral ((if e < 0 then "e-" else "e+") ++ toString e.natAbs) :=
    .append (.ite (by decide) (by decide)) (numeral_nat _)
  have hpoint : Numeral "." := by decide
  unfold Digits.text
  generalize Nat.toDigits 10 d.digits = written at hdigits
  extract_lets digits count point exponent power
  split_ifs
  · exact .append (.ofList hdigits) (numeral_zeros _)
  · exact .append (.append (.ofList fun c hc => hdigits c (List.mem_of_mem_take hc)) hpoint)
      (.ofList fun c hc => hdigits c (List.mem_of_mem_drop hc))
  · exact .append (.append (by decide) (numeral_zeros _)) (.ofList hdigits)
  · rcases written with _ | ⟨first, _ | ⟨second, rest⟩⟩
    · exact hpower _
    · exact .append (.ofList hdigits) (hpower _)
    · refine .append (.ofList ?_) (hpower _)
      rw [List.forall_mem_cons] at hdigits
      simp only [List.forall_mem_cons (a := '.'), List.forall_mem_cons (a := first)]
      exact ⟨hdigits.1, by decide, hdigits.2⟩

theorem numeral_text (x : Float) : Numeral (text x) := by
  unfold text
  split
  · decide
  · exact .ite (by decide) (by decide)
  · exact .ite (by decide) (.append (.ite (by decide) (by decide)) (numeral_digits _))

theorem numeral_natText (n : ℕ) : Numeral (natText n) :=
  .ite (numeral_nat n) (numeral_text _)

theorem numeral_placed (n places : ℕ) : Numeral (placed n places) := by
  have hpadded : ∀ c ∈ List.replicate (places + 1 - (Nat.toDigits 10 n).length) '0' ++
      Nat.toDigits 10 n, isNumeralChar c = true := by
    intro c hc
    rcases List.mem_append.1 hc with hc | hc
    · rw [List.eq_of_mem_replicate hc]
      decide
    · exact isNumeralChar_of_mem_toDigits hc
  have hpoint : Numeral "." := by decide
  exact .ite (.ofList hpadded)
    (.append (.append (.ofList fun c hc => hpadded c (List.mem_of_mem_take hc)) hpoint)
      (.ofList fun c hc => hpadded c (List.mem_of_mem_drop hc)))

theorem numeral_fixed (places : ℕ) (x : Float) : Numeral (fixed places x) := by
  unfold fixed
  split
  · exact .ite (numeral_text x) (.append (.ite (by decide) (by decide)) (numeral_placed _ _))
  · exact numeral_text x

end Decimal

theorem LineNumber.numeral_text (n : LineNumber) : Numeral n.text := by
  cases n with
  | exact value => exact .ite (numeral_int _) (Decimal.numeral_text _)
  | infinite negative => exact .ite (by decide) (by decide)
  | notANumber => decide

end CodeGrade
