import CodeGrade.Proofs.Balance

/-!
# Cutting texts outside brackets

A list is cut at its commas and a parameter at its first `=` and `:`, all outside brackets. A text is
*sealed* against marks that stand inside its brackets only: no cut at such a mark is made in it. The
blanks around a text can be taken off before it is cut or after.

## Main definitions

* `Sealed`: the brackets of a text are balanced, and certain marks stand inside them only.
* `Text.Spaced`: a text is another one with blanks around it.
-/

namespace CodeGrade

open Text (allBlank)

/-! ### Texts that can be cut around -/

/-- The brackets of the text are balanced, whatever their sorts, and the marks stand only inside
them. -/
structure Sealed (marks : List Char) (text : List Char) : Prop where
  closed : bracketDepth text = 0
  nonneg : ∀ i < text.length, 0 ≤ bracketDepth (text.take i)
  inside : ∀ i < text.length, text[i]?.any (· ∈ marks) = true → 0 < bracketDepth (text.take i)

instance (marks text : List Char) : Decidable (Sealed marks text) :=
  decidable_of_iff (_ ∧ _ ∧ _)
    ⟨fun h => ⟨h.1, h.2.1, h.2.2⟩, fun h => ⟨h.closed, h.nonneg, h.inside⟩⟩

theorem bracketDepth_append (a b : List Char) :
    bracketDepth (a ++ b) = bracketDepth a + bracketDepth b := by
  simp only [bracketDepth, List.countP_append]
  push_cast
  ring

namespace Sealed

variable {marks text more : List Char}

theorem depth_nonneg (h : Sealed marks text) (i : Nat) : 0 ≤ bracketDepth (text.take i) := by
  by_cases hi : i < text.length
  · exact h.nonneg i hi
  · rw [List.take_of_length_le (by omega), h.closed]

theorem depth_pos (h : Sealed marks text) {mark : Char} (hmark : mark ∈ marks) {i : Nat}
    (hi : text[i]? = some mark) : 0 < bracketDepth (text.take i) :=
  h.inside i (List.getElem?_eq_some_iff.1 hi).1 (by simp [hi, hmark])

theorem intro (hclosed : bracketDepth text = 0)
    (hnonneg : ∀ i < text.length, 0 ≤ bracketDepth (text.take i))
    (hinside : ∀ mark ∈ marks, ∀ i < text.length, text[i]? = some mark →
      0 < bracketDepth (text.take i)) : Sealed marks text := by
  refine ⟨hclosed, hnonneg, fun i hi hany => ?_⟩
  cases hget : text[i]? with
  | none => simp [hget] at hany
  | some mark => exact hinside mark (by simpa [hget] using hany) i hi hget

theorem append (h : Sealed marks text) (hmore : Sealed marks more) :
    Sealed marks (text ++ more) := by
  have hdepth (i : Nat) : bracketDepth ((text ++ more).take i) =
      bracketDepth (text.take i) + bracketDepth (more.take (i - text.length)) := by
    rw [List.take_append, bracketDepth_append]
  refine .intro (by rw [bracketDepth_append, h.closed, hmore.closed, add_zero]) (fun i _ => ?_)
    fun mark hmark i _ hi => ?_
  · rw [hdepth]
    exact add_nonneg (h.depth_nonneg i) (hmore.depth_nonneg _)
  · rw [hdepth]
    by_cases hlt : i < text.length
    · rw [List.getElem?_append_left hlt] at hi
      exact add_pos_of_pos_of_nonneg (h.depth_pos hmark hi) (hmore.depth_nonneg _)
    · rw [List.getElem?_append_right (by omega)] at hi
      exact add_pos_of_nonneg_of_pos (h.depth_nonneg i) (hmore.depth_pos hmark hi)

theorem of_subset (h : Sealed marks text) {fewer : List Char} (hfewer : fewer ⊆ marks) :
    Sealed fewer text :=
  .intro h.closed h.nonneg fun _ hmark _ _ hi => h.depth_pos (hfewer hmark) hi

/-- A text without brackets is sealed against what does not occur in it. -/
theorem of_plain (hbracket : ∀ c ∈ text, isBracket c = false) (hmarks : ∀ c ∈ text, c ∉ marks) :
    Sealed marks text := by
  have hdepth (some : List Char) (hsome : some ⊆ text) : bracketDepth some = 0 := by
    have hnone (p : Char → Bool) (hp : ∀ c, isBracket c = false → p c = false) :
        some.countP p = 0 :=
      List.countP_eq_zero.2 fun c hc => by simp [hp c (hbracket c (hsome hc))]
    have hopener := hnone isOpener fun c hc => (Bool.or_eq_false_iff.1 hc).1
    have hcloser := hnone isCloser fun c hc => (Bool.or_eq_false_iff.1 hc).2
    simp [bracketDepth, hopener, hcloser]
  refine .intro (hdepth text (List.Subset.refl _)) (fun i _ => ?_) fun mark hmark i _ hi => ?_
  · rw [hdepth _ (List.take_subset _ _)]
  · exact absurd hmark (hmarks mark (List.mem_of_getElem? hi))

theorem of_append_left (h : Sealed marks (text ++ more)) (hmore : bracketDepth more = 0) :
    Sealed marks text := by
  have hclosed := h.closed
  rw [bracketDepth_append, hmore, add_zero] at hclosed
  refine .intro hclosed (fun i hi => ?_) fun mark hmark i hi hget => ?_
  · rw [← List.take_append_of_le_length hi.le]
    exact h.depth_nonneg i
  · rw [← List.take_append_of_le_length hi.le]
    exact h.depth_pos hmark ((List.getElem?_append_left hi).trans hget)

theorem of_append_right (h : Sealed marks (text ++ more)) (htext : bracketDepth text = 0) :
    Sealed marks more := by
  have hclosed := h.closed
  have hdepth (i : Nat) : bracketDepth (more.take i) =
      bracketDepth ((text ++ more).take (text.length + i)) := by
    rw [List.take_length_add_append, bracketDepth_append, htext, zero_add]
  rw [bracketDepth_append, htext, zero_add] at hclosed
  refine .intro hclosed (fun i _ => ?_) fun mark hmark i _ hget => ?_
  · rw [hdepth]
    exact h.depth_nonneg _
  · rw [hdepth]
    refine h.depth_pos hmark ?_
    rw [List.getElem?_append_right (by omega), Nat.add_sub_cancel_left, hget]

/-- Blanks are sealed against the marks that are none. -/
theorem of_blank (htext : allBlank text = true)
    (hmarks : marks.all (!Text.isBlank ·) = true) : Sealed marks text := by
  have hblank := List.all_eq_true.1 htext
  refine of_plain (fun c hc => not_isBracket_of_isBlank (hblank c hc)) fun c hc hmark => ?_
  exact absurd (hblank c hc) (by simpa using List.all_eq_true.1 hmarks c hmark)

end Sealed

/-! ### Cutting -/

/-- A character that neither closes the list nor is a comma between pieces belongs to the current
piece. -/
theorem splitArguments_cons {depth depth' : Nat} {c : Char}
    (hdepth : (depth' : Int) = depth + bracketDepth [c]) (hcomma : c = ',' → 0 < depth)
    (current rest : List Char) :
    splitArguments depth current (c :: rest) = splitArguments depth' (c :: current) rest := by
  cases hopener : isOpener c with
  | true =>
    rw [bracketDepth_opener hopener] at hdepth
    obtain rfl : depth' = depth + 1 := by omega
    simp [splitArguments, hopener]
  | false =>
    cases hcloser : isCloser c with
    | true =>
      rw [bracketDepth_closer hopener hcloser] at hdepth
      obtain rfl : depth = depth' + 1 := by omega
      simp [splitArguments, hopener, hcloser]
    | false =>
      rw [bracketDepth_other hopener hcloser] at hdepth
      obtain rfl : depth' = depth := by omega
      rw [splitArguments_plain (by simp [isBracket, hopener, hcloser]), if_neg]
      rintro ⟨rfl, hzero⟩
      exact absurd (hcomma rfl) (by omega)

/-- A text that never leaves the list, with each comma inside further brackets, belongs to the
current piece. -/
theorem splitArguments_append {text : List Char} (depth depth' : Nat) (current rest : List Char)
    (hdepth : (depth' : Int) = depth + bracketDepth text)
    (hnonneg : ∀ i, 0 ≤ depth + bracketDepth (text.take i))
    (hcomma : ∀ i, text[i]? = some ',' → 0 < depth + bracketDepth (text.take i)) :
    splitArguments depth current (text ++ rest) =
      splitArguments depth' (text.reverse ++ current) rest := by
  induction text generalizing depth current with
  | nil =>
    obtain rfl : depth' = depth := by simpa using hdepth
    rfl
  | cons c text ih =>
    have hfirst := hnonneg 1
    rw [List.take_succ_cons, List.take_zero] at hfirst
    obtain ⟨between, hbetween⟩ := Int.eq_ofNat_of_zero_le hfirst
    have htake (i : Nat) : depth + bracketDepth ((c :: text).take (i + 1)) =
        between + bracketDepth (text.take i) := by
      rw [List.take_succ_cons, bracketDepth_cons, ← hbetween]
      ring
    rw [List.cons_append, splitArguments_cons hbetween.symm fun hc => by simpa [hc] using hcomma 0,
      ih between (c :: current), List.reverse_cons, List.append_assoc]
    · rfl
    · rw [hdepth, bracketDepth_cons, ← hbetween]
      ring
    · exact fun i => htake i ▸ hnonneg (i + 1)
    · exact fun i hi => htake i ▸ hcomma (i + 1) (by simpa using hi)

theorem Sealed.splitArguments_append {piece : List Char} (h : Sealed [','] piece)
    (current rest : List Char) :
    splitArguments 0 current (piece ++ rest) =
      splitArguments 0 (piece.reverse ++ current) rest :=
  CodeGrade.splitArguments_append 0 0 current rest (by simp [h.closed])
    (by simpa using h.depth_nonneg) fun i hi => by simpa using h.depth_pos (by simp) hi

/-- A list is cut at its commas, and ends at the bracket that closes it. -/
theorem splitArguments_intercalate {piece : List Char} {pieces : List (List Char)}
    (h : ∀ p ∈ piece :: pieces, Sealed [','] p) (after : List Char) :
    splitArguments 0 [] ([','].intercalate (piece :: pieces) ++ ')' :: after) =
      some (piece :: pieces, after) := by
  induction pieces generalizing piece with
  | nil =>
    rw [List.intercalate_singleton, (h piece (by simp)).splitArguments_append]
    simp [splitArguments, isOpener, isCloser, Bracket.ofOpener?, Bracket.ofCloser?]
  | cons next pieces ih =>
    have hcomma : isBracket ',' = false := by decide
    rw [List.intercalate_cons_cons, List.append_assoc, List.append_assoc,
      (h piece (by simp)).splitArguments_append, List.singleton_append,
      splitArguments_plain hcomma, if_pos ⟨rfl, rfl⟩,
      ih fun p hp => h p (List.mem_cons_of_mem _ hp)]
    simp

theorem splitTopFrom_cons {target c : Char} {depth : Int} (htarget : c = target → depth ≠ 0)
    (rest : List Char) :
    splitTopFrom target depth (c :: rest) =
      (splitTopFrom target (depth + bracketDepth [c]) rest).map (Prod.map (c :: ·) id) := by
  cases hopener : isOpener c with
  | true =>
    rw [bracketDepth_opener hopener]
    simp only [splitTopFrom, hopener, ↓reduceIte]
    rfl
  | false =>
    cases hcloser : isCloser c with
    | true =>
      rw [bracketDepth_closer hopener hcloser, ← sub_eq_add_neg]
      simp only [splitTopFrom, hopener, hcloser, ↓reduceIte, Bool.false_eq_true]
      rfl
    | false =>
      have hnot : ¬ (c = target ∧ depth = 0) := fun h => htarget h.1 h.2
      rw [bracketDepth_other hopener hcloser, add_zero]
      simp only [splitTopFrom, hopener, hcloser, hnot, ↓reduceIte, Bool.false_eq_true]
      rfl

/-- A text in which no target stands outside all brackets is passed over. -/
theorem splitTopFrom_append {target : Char} {text : List Char} (depth : Int)
    (htarget : ∀ i, text[i]? = some target → depth + bracketDepth (text.take i) ≠ 0)
    (rest : List Char) :
    splitTopFrom target depth (text ++ rest) =
      (splitTopFrom target (depth + bracketDepth text) rest).map (Prod.map (text ++ ·) id) := by
  induction text generalizing depth with
  | nil =>
    rw [bracketDepth_nil, add_zero]
    exact Option.map_id'.symm
  | cons c text ih =>
    rw [List.cons_append, splitTopFrom_cons fun hc => by simpa [hc] using htarget 0, ih,
      bracketDepth_cons c text, ← add_assoc, Option.map_map]
    · rfl
    · intro i hi
      rw [add_assoc, ← bracketDepth_cons, ← List.take_succ_cons]
      exact htarget (i + 1) (by simpa using hi)

namespace Sealed

variable {target : Char} {text : List Char}

theorem splitTop_append (h : Sealed [target] text) (rest : List Char) :
    splitTop target (text ++ rest) = (splitTop target rest).map (Prod.map (text ++ ·) id) := by
  rw [splitTop, splitTopFrom_append, h.closed, add_zero, splitTop]
  intro i hi
  have := h.depth_pos (by simp) hi
  omega

theorem splitTop_eq_none (h : Sealed [target] text) : splitTop target text = none := by
  simpa [splitTop, splitTopFrom] using h.splitTop_append []

theorem splitTop_eq_some (h : Sealed [target] text) (htarget : isBracket target = false)
    (rest : List Char) : splitTop target (text ++ target :: rest) = some (text, rest) := by
  obtain ⟨hopener, hcloser⟩ := Bool.or_eq_false_iff.1 htarget
  rw [h.splitTop_append]
  simp [splitTop, splitTopFrom, hopener, hcloser]

end Sealed

/-! ### Blanks around a text -/

namespace Text

theorem allBlank_append (a b : List Char) : allBlank (a ++ b) = (allBlank a && allBlank b) :=
  List.all_append

theorem trimStart_append_cons {c : Char} (hc : isBlank c = false) (left right : List Char) :
    trimStart (left ++ c :: right) = trimStart left ++ c :: right := by
  rw [trimStart, List.dropWhile_append, trimStart, List.dropWhile_cons_of_neg (by simp [hc])]
  split
  · rename_i hnil
    rw [List.isEmpty_iff.1 hnil, List.nil_append]
  · rfl

theorem trimEnd_append_cons {c : Char} (hc : isBlank c = false) (left right : List Char) :
    trimEnd (left ++ c :: right) = left ++ c :: trimEnd right := by
  have h := trimStart_append_cons hc right.reverse left.reverse
  rw [trimEnd, List.reverse_append, List.reverse_cons, List.append_assoc, List.singleton_append,
    ← trimStart, h]
  simp [trimEnd, trimStart]

/-- Only the blanks before and after a character that is none are taken off. -/
theorem trim_append_cons {c : Char} (hc : isBlank c = false) (left right : List Char) :
    trim (left ++ c :: right) = trimStart left ++ c :: trimEnd right := by
  rw [trim, trimStart_append_cons hc, trimEnd_append_cons hc]

theorem trimStart_append_of_blank {blanks : List Char} (h : allBlank blanks = true)
    (text : List Char) : trimStart (blanks ++ text) = trimStart text :=
  List.dropWhile_append_of_pos (List.all_eq_true.1 h)

theorem trimEnd_append_of_blank {blanks : List Char} (h : allBlank blanks = true)
    (text : List Char) : trimEnd (text ++ blanks) = trimEnd text := by
  rw [trimEnd, List.reverse_append, List.dropWhile_append_of_pos, trimEnd]
  exact fun c hc => List.all_eq_true.1 h c (List.mem_reverse.1 hc)

theorem trim_append_of_blank {blanks : List Char} (h : allBlank blanks = true)
    (text : List Char) : trim (text ++ blanks) = trim text := by
  rw [trim, trimStart, List.dropWhile_append]
  split
  · rename_i hnil
    have hblanks : trim blanks = [] := trim_eq_nil.2 h
    rw [trim, trimStart] at hblanks
    rw [hblanks, trim, trimStart, List.isEmpty_iff.1 hnil]
    rfl
  · exact trimEnd_append_of_blank h _

theorem exists_trimStart (text : List Char) :
    ∃ blanks, allBlank blanks = true ∧ text = blanks ++ trimStart text := by
  obtain ⟨blanks, hblanks, htext, -⟩ := trimStart_eq_iff.1 (rfl : trimStart text = _)
  exact ⟨blanks, hblanks, htext⟩

theorem exists_trimEnd (text : List Char) :
    ∃ blanks, allBlank blanks = true ∧ text = trimEnd text ++ blanks := by
  obtain ⟨blanks, hblanks, htext⟩ := exists_trimStart text.reverse
  refine ⟨blanks.reverse, by simpa [allBlank] using hblanks, ?_⟩
  rw [trimEnd, ← List.reverse_append, ← trimStart, ← htext, List.reverse_reverse]

@[simp] theorem trim_trimEnd (text : List Char) : trim (trimEnd text) = trim text := by
  obtain ⟨blanks, hblanks, htext⟩ := exists_trimEnd text
  conv_rhs => rw [htext, trim_append_of_blank hblanks]

theorem trimStart_word {word : List Char} (h : ∀ c ∈ word, isBlank c = false) :
    trimStart word = word := by
  refine trimStart_eq_iff.2 ⟨[], rfl, rfl, ?_⟩
  cases word with
  | nil => rfl
  | cons c word => simp [h c (by simp)]

theorem trimEnd_word {word : List Char} (h : ∀ c ∈ word, isBlank c = false) :
    trimEnd word = word := by
  have hreverse := trimStart_word fun c hc => h c (List.mem_reverse.1 hc)
  rw [trimStart] at hreverse
  rw [trimEnd, hreverse, List.reverse_reverse]

/-- The text is the core with blanks around it. -/
def Spaced (core text : List Char) : Prop :=
  ∃ before after, allBlank before = true ∧ allBlank after = true ∧ text = before ++ core ++ after

namespace Spaced

variable {core text : List Char}

theorem trim_eq (h : Spaced core text) : trim text = trim core := by
  obtain ⟨before, after, hbefore, hafter, rfl⟩ := h
  rw [trim_append_of_blank hafter, trim, trimStart_append_of_blank hbefore, trim]

/-- A word with blanks around it is trimmed to the word. -/
theorem trim_word (h : Spaced core text) (hcore : ∀ c ∈ core, isBlank c = false) :
    trim text = core := by
  rw [h.trim_eq, trim, trimStart_word hcore, trimEnd_word hcore]

theorem append_left (h : Spaced core text) {blanks : List Char} (hblanks : allBlank blanks = true) :
    Spaced core (blanks ++ text) := by
  obtain ⟨before, after, hbefore, hafter, rfl⟩ := h
  refine ⟨blanks ++ before, after, ?_, hafter, by simp⟩
  rw [allBlank_append, hblanks, hbefore]
  rfl

theorem trimStart (h : Spaced core text) (hne : core ≠ []) (hcore : ∀ c ∈ core, isBlank c = false) :
    Spaced core (trimStart text) := by
  obtain ⟨before, after, hbefore, hafter, rfl⟩ := h
  obtain ⟨first, more, rfl⟩ := List.exists_cons_of_ne_nil hne
  refine ⟨[], after, rfl, hafter, ?_⟩
  rw [List.append_assoc, trimStart_append_of_blank hbefore]
  exact trimStart_append_cons (hcore first (by simp)) [] _

end Spaced

end Text

theorem Sealed.spaced {marks core text : List Char} (h : Sealed marks core)
    (htext : Text.Spaced core text) (hmarks : marks.all (!Text.isBlank ·) = true) :
    Sealed marks text := by
  obtain ⟨before, after, hbefore, hafter, rfl⟩ := htext
  exact ((of_blank hbefore hmarks).append h).append (of_blank hafter hmarks)

theorem bracketDepth_blank {blanks : List Char} (h : allBlank blanks = true) :
    bracketDepth blanks = 0 :=
  (Sealed.of_blank h List.all_nil).closed

theorem Sealed.trimStart {marks text : List Char} (h : Sealed marks text) :
    Sealed marks (Text.trimStart text) := by
  obtain ⟨blanks, hblanks, htext⟩ := Text.exists_trimStart text
  exact (htext ▸ h).of_append_right (bracketDepth_blank hblanks)

theorem Sealed.trim {marks text : List Char} (h : Sealed marks text) :
    Sealed marks (Text.trim text) := by
  obtain ⟨blanks, hblanks, htext⟩ := Text.exists_trimEnd (Text.trimStart text)
  exact (htext ▸ h.trimStart).of_append_left (bracketDepth_blank hblanks)

end CodeGrade
