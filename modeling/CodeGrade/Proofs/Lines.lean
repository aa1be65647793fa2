import CodeGrade.Source.Unit
import Mathlib

/-!
# Lines of a text

Each character of a line stands at one place of the text, and replacing it there, by a character
that ends no line, replaces it in the line and nowhere else. No character of a line ends one.

## Main definitions

* `isLineEnd`: the characters that end a line.
* `Unbroken`: a text on one line.
-/

namespace CodeGrade

/-- Whether a character ends a line. -/
def isLineEnd (c : Char) : Bool := c = '\r' || c = '\n'

theorem isLineEnd_eq_false {c : Char} : isLineEnd c = false ↔ c ≠ '\r' ∧ c ≠ '\n' := by
  simp [isLineEnd]

theorem linePieces_cons {c : Char} (hc : isLineEnd c = false) (current rest : List Char) :
    linePieces current (c :: rest) = linePieces (c :: current) rest := by
  obtain ⟨hr, hn⟩ := isLineEnd_eq_false.1 hc
  rw [linePieces] <;> simp_all

theorem linePieces_return {rest : List Char} (current : List Char)
    (hrest : ∀ more, rest ≠ '\n' :: more) :
    linePieces current ('\r' :: rest) = current.reverse :: linePieces [] rest := by
  rw [linePieces]
  exact fun more => hrest more

/-- What was read before stands at the start of the first piece. -/
theorem linePieces_append (current before text : List Char) :
    linePieces (current ++ before) text =
      (linePieces current text).modifyHead (before.reverse ++ ·) := by
  fun_induction linePieces current text with
  | case1 current => simp [linePieces]
  | case2 current rest ih => simp [linePieces]
  | case3 current rest hrest ih => simp [linePieces_return _ hrest]
  | case4 current rest ih => simp [linePieces]
  | case5 current c rest hreturn₁ hreturn hfeed ih =>
    have hc : isLineEnd c = false := isLineEnd_eq_false.2 ⟨hreturn, hfeed⟩
    rw [linePieces_cons hc, ← ih, List.cons_append]

theorem linePieces_ne_nil (current text : List Char) : linePieces current text ≠ [] := by
  fun_induction linePieces current text <;> simp_all

theorem exists_linePieces_eq_cons (text : List Char) :
    ∃ first pieces, ∀ current, linePieces current text = (current.reverse ++ first) :: pieces := by
  obtain ⟨first, pieces, hpieces⟩ := List.exists_cons_of_ne_nil (linePieces_ne_nil [] text)
  refine ⟨first, pieces, fun current => ?_⟩
  rw [← List.nil_append current, linePieces_append, hpieces, List.modifyHead_cons]
  rfl

/-- A character of a piece, other than those read before, stands in the text. -/
theorem linePieces_set (current text : List Char) {i j : Nat} {old c : Char}
    (hold : (linePieces current text)[i]?.bind (·[j]?) = some old)
    (hj : i = 0 → current.length ≤ j) (hc : isLineEnd c = false) :
    ∃ k, text[k]? = some old ∧
      linePieces current (text.set k c) = (linePieces current text).modify i (·.set j c) := by
  fun_induction linePieces current text generalizing i with
  | case1 current => grind
  | case2 current rest ih =>
    cases i with
    | zero => grind
    | succ i =>
      obtain ⟨k, hk, hset⟩ := ih (by simpa using hold) (by simp)
      exact ⟨k + 2, by simpa using hk, by simp [linePieces, hset]⟩
  | case3 current rest hrest ih =>
    cases i with
    | zero => grind
    | succ i =>
      obtain ⟨k, hk, hset⟩ := ih (by simpa using hold) (by simp)
      have hrest' (more : List Char) : rest.set k c ≠ '\n' :: more := by
        cases rest <;> cases k <;> simp_all [isLineEnd]
      refine ⟨k + 1, by simpa using hk, ?_⟩
      rw [List.set_cons_succ, linePieces_return _ hrest', hset, List.modify_succ_cons]
  | case4 current rest ih =>
    cases i with
    | zero => grind
    | succ i =>
      obtain ⟨k, hk, hset⟩ := ih (by simpa using hold) (by simp)
      exact ⟨k + 1, by simpa using hk, by simp [linePieces, hset]⟩
  | case5 current first rest hreturn₁ hreturn hfeed ih =>
    have hfirst : isLineEnd first = false := isLineEnd_eq_false.2 ⟨hreturn, hfeed⟩
    by_cases hplace : i = 0 ∧ j = current.length
    · obtain ⟨rfl, rfl⟩ := hplace
      obtain ⟨line, pieces, hpieces⟩ := exists_linePieces_eq_cons rest
      refine ⟨0, ?_, ?_⟩
      · simpa [hpieces] using hold
      · rw [List.set_cons_zero, linePieces_cons hc, hpieces, hpieces]
        simp
    · obtain ⟨k, hk, hset⟩ := ih hold (by grind)
      refine ⟨k + 1, by simpa using hk, ?_⟩
      rw [List.set_cons_succ, linePieces_cons hfirst, hset]

/-- Replacing a character leaves no line empty and makes none empty. -/
theorem getLast?_modify_set (lines : List (List Char)) (i j : Nat) (c : Char) :
    (lines.modify i (·.set j c)).getLast? = some [] ↔ lines.getLast? = some [] := by
  simp only [List.getLast?_eq_getElem?, List.length_modify, List.getElem?_modify]
  split <;> simp [Option.map_eq_some_iff]

/-- Replacing a character of a line is replacing it in the text. -/
theorem splitLines_set {text : List Char} {i j : Nat} {old c : Char}
    (hold : (splitLines text)[i]?.bind (·[j]?) = some old) (hc : isLineEnd c = false) :
    ∃ k, text[k]? = some old ∧
      splitLines (text.set k c) = (splitLines text).modify i (·.set j c) := by
  have hpiece : (linePieces [] text)[i]?.bind (·[j]?) = some old := by
    unfold splitLines at hold
    grind
  obtain ⟨k, hk, hset⟩ := linePieces_set [] text hpiece (by simp) hc
  refine ⟨k, hk, ?_⟩
  simp only [splitLines, hset, beq_iff_eq, getLast?_modify_set]
  split
  · apply List.ext_getElem?
    intro m
    simp only [List.getElem?_dropLast, List.getElem?_modify, List.length_modify]
    split <;> rfl
  · rfl

/-! ### Texts on one line -/

/-- No character of the text ends a line. -/
def Unbroken (text : List Char) : Prop := ∀ c ∈ text, isLineEnd c = false

instance (text : List Char) : Decidable (Unbroken text) := List.decidableBAll _ _

theorem Unbroken.of_subset {part text : List Char} (h : Unbroken text) (hpart : part ⊆ text) :
    Unbroken part :=
  fun c hc => h c (hpart hc)

theorem unbroken_iff {text : List Char} : Unbroken text ↔ '\r' ∉ text ∧ '\n' ∉ text := by
  simp only [Unbroken, isLineEnd_eq_false, forall_and, ne_eq, imp_not_comm, forall_eq]

theorem Unbroken.feed_not_mem {text : List Char} (h : Unbroken text) : '\n' ∉ text :=
  (unbroken_iff.1 h).2

theorem unbroken_nil : Unbroken [] := List.forall_mem_nil _

theorem unbroken_append {a b : List Char} : Unbroken (a ++ b) ↔ Unbroken a ∧ Unbroken b :=
  List.forall_mem_append

theorem unbroken_cons {c : Char} {text : List Char} :
    Unbroken (c :: text) ↔ isLineEnd c = false ∧ Unbroken text :=
  List.forall_mem_cons

/-- A literal stands for a list of characters, which is checked without decoding it again. -/
theorem forall_mem_literal {p : Char → Bool} {text : String} {chars : List Char}
    (h : text = String.ofList chars) (hchars : chars.all p = true) :
    ∀ c ∈ text.toList, p c = true := by
  rw [h, String.toList_ofList]
  exact List.all_eq_true.1 hchars

theorem unbroken_linePieces {current : List Char} (hcurrent : Unbroken current) (text : List Char) :
    ∀ piece ∈ linePieces current text, Unbroken piece := by
  have hpiece : ∀ {current : List Char}, Unbroken current → Unbroken current.reverse :=
    fun h => h.of_subset fun _ hc => List.mem_reverse.1 hc
  fun_induction linePieces current text with
  | case1 current => simpa using hpiece hcurrent
  | case2 current rest ih => exact List.forall_mem_cons.2 ⟨hpiece hcurrent, ih unbroken_nil⟩
  | case3 current rest hrest ih => exact List.forall_mem_cons.2 ⟨hpiece hcurrent, ih unbroken_nil⟩
  | case4 current rest ih => exact List.forall_mem_cons.2 ⟨hpiece hcurrent, ih unbroken_nil⟩
  | case5 current c rest hreturn₁ hreturn hfeed ih =>
    exact ih (unbroken_cons.2 ⟨isLineEnd_eq_false.2 ⟨hreturn, hfeed⟩, hcurrent⟩)

theorem unbroken_splitLines (text : List Char) : ∀ line ∈ splitLines text, Unbroken line := by
  intro line hline
  have hpieces := unbroken_linePieces unbroken_nil text
  rw [splitLines] at hline
  split at hline
  · exact hpieces line (List.mem_of_mem_dropLast hline)
  · exact hpieces line hline

end CodeGrade
