import CodeGrade.Source.Mask
import Mathlib

/-!
# Words of brackets

A word of brackets is properly nested if it can be put together from pairs of brackets of one sort.
Reading the word with a stack of open brackets decides this: the stack is empty at the end exactly
if the word is properly nested, and before that its height is the number of brackets that have been
opened and not closed.

## Main definitions

* `ProperlyNested`: the properly nested words.
* `openBrackets`: the brackets that are open after a text.
* `Closes`: a word closes the brackets that are open before it.
-/

namespace CodeGrade

/-- Whether the character is a bracket. -/
def isBracket (c : Char) : Bool := isOpener c || isCloser c

/-- Words of brackets in which each pair holds a word of this sort. -/
inductive ProperlyNested : List Char → Prop where
  | nil : ProperlyNested []
  | pair (b : Bracket) {inner rest : List Char} :
      ProperlyNested inner → ProperlyNested rest →
        ProperlyNested (b.opener :: (inner ++ b.closer :: rest))

/-- The brackets that are open after a text, innermost first, given those that are open before it.
There is no answer if a closing bracket closes nothing, or one of another sort. -/
def openBrackets (stack : List Bracket) : List Char → Option (List Bracket)
  | [] => some stack
  | c :: rest =>
    match Bracket.ofOpener? c, Bracket.ofCloser? c with
    | some bracket, _ => openBrackets (bracket :: stack) rest
    | none, some bracket =>
      match stack with
      | top :: outer => if top = bracket then openBrackets outer rest else none
      | [] => none
    | none, none => openBrackets stack rest

namespace Bracket

theorem ofOpener?_eq_some {c : Char} {b : Bracket} : ofOpener? c = some b ↔ c = b.opener := by
  cases b <;> grind [ofOpener?, opener]

theorem ofCloser?_eq_some {c : Char} {b : Bracket} : ofCloser? c = some b ↔ c = b.closer := by
  cases b <;> grind [ofCloser?, closer]

@[simp] theorem ofOpener?_opener (b : Bracket) : ofOpener? b.opener = some b :=
  ofOpener?_eq_some.2 rfl

@[simp] theorem ofCloser?_closer (b : Bracket) : ofCloser? b.closer = some b :=
  ofCloser?_eq_some.2 rfl

@[simp] theorem ofOpener?_closer (b : Bracket) : ofOpener? b.closer = none := by
  cases b <;> rfl

end Bracket

/-! ### Reading with a stack -/

section openBrackets

variable {stack : List Bracket}

@[simp] theorem openBrackets_opener (b : Bracket) (rest : List Char) :
    openBrackets stack (b.opener :: rest) = openBrackets (b :: stack) rest := by
  simp [openBrackets]

@[simp] theorem openBrackets_closer (b : Bracket) (rest : List Char) :
    openBrackets (b :: stack) (b.closer :: rest) = openBrackets stack rest := by
  simp [openBrackets]

theorem openBrackets_cons_of_not_isBracket {c : Char} (hc : isBracket c = false)
    (rest : List Char) : openBrackets stack (c :: rest) = openBrackets stack rest := by
  simp only [isBracket, isOpener, isCloser, Bool.or_eq_false_iff, Option.isSome_eq_false_iff,
    Option.isNone_iff_eq_none] at hc
  simp [openBrackets, hc]

/-- Induction along a reading: each character opens a bracket, closes the innermost one, is no
bracket, or ends the reading. -/
@[elab_as_elim]
theorem openBrackets_induction {motive : List Bracket → List Char → Prop}
    (nil : ∀ stack, motive stack [])
    (opener : ∀ stack b rest, motive (b :: stack) rest → motive stack (b.opener :: rest))
    (closer : ∀ b outer rest, motive outer rest → motive (b :: outer) (b.closer :: rest))
    (other : ∀ stack c rest, isBracket c = false → motive stack rest → motive stack (c :: rest))
    (stuck : ∀ stack b rest, stack.head? ≠ some b →
      (∀ more, openBrackets stack (b.closer :: more) = none) → motive stack (b.closer :: rest))
    (stack : List Bracket) (text : List Char) : motive stack text := by
  induction text generalizing stack with
  | nil => exact nil stack
  | cons c rest ih =>
    cases hopener : Bracket.ofOpener? c with
    | some b =>
      rw [Bracket.ofOpener?_eq_some.1 hopener]
      exact opener stack b rest (ih _)
    | none =>
      cases hcloser : Bracket.ofCloser? c with
      | none => exact other stack c rest (by simp [isBracket, isOpener, isCloser, *]) (ih _)
      | some b =>
        rw [Bracket.ofCloser?_eq_some.1 hcloser]
        by_cases htop : stack.head? = some b
        · obtain ⟨outer, rfl⟩ := List.head?_eq_some_iff.1 htop
          exact closer b outer rest (ih _)
        · refine stuck stack b rest htop fun more => ?_
          cases stack with
          | nil => simp [openBrackets]
          | cons top outer =>
            have hne : top ≠ b := by simpa using htop
            simp [openBrackets, hne]

theorem openBrackets_append (stack : List Bracket) (a b : List Char) :
    openBrackets stack (a ++ b) = (openBrackets stack a).bind (openBrackets · b) := by
  induction stack, a using openBrackets_induction with
  | nil stack => rfl
  | opener stack bracket rest ih => simp [ih]
  | closer bracket outer rest ih => simp [ih]
  | other stack c rest hc ih => simp [openBrackets_cons_of_not_isBracket hc, ih]
  | stuck stack bracket rest _ hnone => simp [hnone]

/-- Only the brackets of a text matter. -/
theorem openBrackets_filter (stack : List Bracket) (text : List Char) :
    openBrackets stack (text.filter isBracket) = openBrackets stack text := by
  have hopener (b : Bracket) : isBracket b.opener = true := by cases b <;> rfl
  have hcloser (b : Bracket) : isBracket b.closer = true := by cases b <;> rfl
  induction stack, text using openBrackets_induction with
  | nil stack => rfl
  | opener stack bracket rest ih => simp [hopener, ih]
  | closer bracket outer rest ih => simp [hcloser, ih]
  | other stack c rest hc ih => simp [openBrackets_cons_of_not_isBracket hc, hc, ih]
  | stuck stack bracket rest _ hnone => simp [hcloser, hnone]

/-- The height of the stack is the number of brackets opened and not closed. -/
theorem length_openBrackets {stack' : List Bracket} {text : List Char}
    (h : openBrackets stack text = some stack') :
    stack'.length + text.countP isCloser = stack.length + text.countP isOpener := by
  have hopener (b : Bracket) : isOpener b.opener = true ∧ isCloser b.opener = false := by
    cases b <;> exact ⟨rfl, rfl⟩
  have hcloser (b : Bracket) : isOpener b.closer = false ∧ isCloser b.closer = true := by
    cases b <;> exact ⟨rfl, rfl⟩
  induction stack, text using openBrackets_induction with
  | nil stack =>
    obtain rfl : stack = stack' := by simpa [openBrackets] using h
    simp
  | opener stack bracket rest ih =>
    have := ih (by simpa using h)
    simp only [List.length_cons, List.countP_cons, hopener, Bool.false_eq_true, ↓reduceIte] at this ⊢
    omega
  | closer bracket outer rest ih =>
    have := ih (by simpa using h)
    simp only [List.length_cons, List.countP_cons, hcloser, Bool.false_eq_true, ↓reduceIte] at this ⊢
    omega
  | other stack c rest hc ih =>
    have := ih (by simpa [openBrackets_cons_of_not_isBracket hc] using h)
    simp only [isBracket, Bool.or_eq_false_iff] at hc
    simpa [hc] using this
  | stuck stack bracket rest _ hnone => simp [hnone] at h

/-- Brackets are open after a text exactly if more were opened than closed. -/
theorem openBrackets_ne_nil_iff {stack : List Bracket} {text : List Char}
    (h : openBrackets [] text = some stack) :
    stack ≠ [] ↔ text.countP isCloser < text.countP isOpener := by
  have hlength := length_openBrackets h
  rw [← List.length_pos_iff]
  simp only [List.length_nil, Nat.zero_add] at hlength
  omega

end openBrackets

/-! ### Properly nested words -/

/-- A properly nested word leaves the stack as it is. -/
theorem ProperlyNested.openBrackets_append {word : List Char} (h : ProperlyNested word)
    (stack : List Bracket) (rest : List Char) :
    openBrackets stack (word ++ rest) = openBrackets stack rest := by
  induction h generalizing stack rest with
  | nil => rfl
  | pair b _ _ ihInner ihRest => simp [ihInner, ihRest]

/-- The word closes the given brackets, the innermost first, and is properly nested between. -/
def Closes : List Bracket → List Char → Prop
  | [], word => ProperlyNested word
  | b :: outer, word =>
    ∃ inner rest, word = inner ++ b.closer :: rest ∧ ProperlyNested inner ∧ Closes outer rest

/-- A properly nested pair may stand in front of a word. -/
theorem Closes.cons_pair {stack : List Bracket} (b : Bracket) {inner rest : List Char}
    (hinner : ProperlyNested inner) (h : Closes stack rest) :
    Closes stack (b.opener :: (inner ++ b.closer :: rest)) := by
  cases stack with
  | nil => exact ProperlyNested.pair b hinner h
  | cons top outer =>
    obtain ⟨between, after, rfl, hbetween, hafter⟩ := h
    exact ⟨_, after, by simp, .pair b hinner hbetween, hafter⟩

/-- A word that leaves no bracket open closes those that are open before it. -/
theorem closes_of_openBrackets {stack : List Bracket} {word : List Char}
    (hword : ∀ c ∈ word, isBracket c = true) (h : openBrackets stack word = some []) :
    Closes stack word := by
  induction stack, word using openBrackets_induction with
  | nil stack =>
    obtain rfl : stack = [] := by simpa [openBrackets] using h
    exact .nil
  | opener stack b rest ih =>
    obtain ⟨inner, after, rfl, hinner, hafter⟩ :=
      ih (List.forall_mem_of_forall_mem_cons hword) (by simpa using h)
    exact hafter.cons_pair b hinner
  | closer b outer rest ih =>
    have hrest := ih (List.forall_mem_of_forall_mem_cons hword) (by simpa using h)
    exact ⟨[], rest, rfl, .nil, hrest⟩
  | other stack c rest hc ih => simp [hword c List.mem_cons_self] at hc
  | stuck stack b rest _ hnone => simp [hnone] at h

/-- The brackets of a text are properly nested exactly if each is closed in turn. -/
theorem properlyNested_iff {text : List Char} :
    ProperlyNested (text.filter isBracket) ↔ openBrackets [] text = some [] := by
  rw [← openBrackets_filter]
  constructor
  · intro h
    simpa [openBrackets] using h.openBrackets_append [] []
  · intro h
    exact closes_of_openBrackets (fun c hc => (List.mem_filter.1 hc).2) h

end CodeGrade
