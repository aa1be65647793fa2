import CodeGrade.Proofs.Building

/-!
# The off-side rule

A statement stands in the block below a header if it and all statements between are indented
further than the header. The builder finds the headers around a statement with a stack of open
blocks, from which it takes those that are not indented less than the statement; that the stack
gives the headers of the rule is the invariant of this module.

## Main definitions

* `Encloses`: the rule.
* `Stacked`: a stack holds the blocks around a place.
* `OffSide`: the headers around each line are those of the rule.
-/

namespace CodeGrade

/-- Line `i` stands in the block below line `p`: that line opens a block, and all lines after it up
to line `i` are indented further than it is. Past the last line this says that the block is still
open. -/
def Encloses (lines : Array LogicalLine) (p i : Nat) : Prop :=
  p < i ∧ ∃ header, lines[p]? = some header ∧ header.opensBlock = true ∧
    ∀ m line, p < m → m ≤ i → lines[m]? = some line → header.indent < line.indent

section Encloses

variable {lines : Array LogicalLine} {line : LogicalLine} {p q i m : Nat}

theorem line_of_push {l : LogicalLine} (h : (lines.push line)[i]? = some l) :
    lines[i]? = some l ∧ i < lines.size ∨ l = line ∧ i = lines.size := by
  grind

theorem Encloses.lt (h : Encloses lines p i) : p < i := h.1

/-- A block has no gaps. -/
theorem Encloses.of_le (h : Encloses lines p i) (hp : p < m) (hm : m ≤ i) :
    Encloses lines p m := by
  obtain ⟨-, header, hheader, hopens, hindent⟩ := h
  exact ⟨hp, header, hheader, hopens, fun k line hk hkm => hindent k line hk (hkm.trans hm)⟩

theorem Encloses.trans (hpq : Encloses lines p q) (hqi : Encloses lines q i) :
    Encloses lines p i := by
  obtain ⟨hlt, outer, houter, hopens, hindent⟩ := hpq
  obtain ⟨hlt', inner, hinner, -, hindent'⟩ := hqi
  refine ⟨hlt.trans hlt', outer, houter, hopens, fun m line hm hmi hline => ?_⟩
  by_cases hq : m ≤ q
  · exact hindent m line hm hq hline
  · calc outer.indent < inner.indent := hindent q inner hlt le_rfl hinner
      _ < line.indent := hindent' m line (by omega) hmi hline

/-- Lines added later do not matter. -/
theorem encloses_push (hi : i < lines.size) :
    Encloses (lines.push line) p i ↔ Encloses lines p i := by
  have hget {m : Nat} (hm : m ≤ i) : (lines.push line)[m]? = lines[m]? := by grind
  refine and_congr_right fun hp => exists_congr fun header => ?_
  rw [hget hp.le]
  refine and_congr_right fun _ => and_congr_right fun _ => ?_
  refine forall₂_congr fun m l => forall₂_congr fun _ hm => ?_
  rw [hget hm]

/-- The blocks around a new line are the open ones whose header is indented less. -/
theorem encloses_push_size :
    Encloses (lines.push line) p lines.size ↔ Encloses lines p lines.size ∧
      ∃ header, lines[p]? = some header ∧ header.indent < line.indent := by
  constructor
  · rintro ⟨hp, header, hheader, hopens, hindent⟩
    have hheader' : lines[p]? = some header := by grind
    refine ⟨⟨hp, header, hheader', hopens, ?_⟩, header, hheader', ?_⟩
    · intro m l hm hms hl
      exact hindent m l hm hms (by grind)
    · exact hindent lines.size line hp le_rfl (by simp)
  · rintro ⟨⟨hp, header, hheader, hopens, hindent⟩, header', hheader', hline⟩
    obtain rfl : header = header' := by simpa [hheader] using hheader'
    refine ⟨hp, header, by grind, hopens, fun m l hm hms hl => ?_⟩
    rcases hms.lt_or_eq with hms | rfl
    · exact hindent m l hm hms.le (by grind)
    · grind

/-- After a new line the blocks around it are open, and its own block. -/
theorem encloses_push_succ :
    Encloses (lines.push line) p (lines.size + 1) ↔
      Encloses (lines.push line) p lines.size ∨ p = lines.size ∧ line.opensBlock = true := by
  constructor
  · intro h
    rcases Nat.lt_succ_iff_lt_or_eq.1 h.lt with hp | rfl
    · exact .inl (h.of_le hp (Nat.le_succ _))
    · obtain ⟨-, header, hheader, hopens, -⟩ := h
      exact .inr ⟨rfl, by grind⟩
  · rintro (⟨hp, header, hheader, hopens, hindent⟩ | ⟨rfl, hopens⟩)
    · refine ⟨hp.trans (Nat.lt_succ_self _), header, hheader, hopens, fun m l hm _ hl => ?_⟩
      exact hindent m l hm (by grind) hl
    · exact ⟨Nat.lt_succ_self _, line, by simp, hopens, by grind⟩

end Encloses

/-! ### The stack of open blocks -/

/-- The frames are those of the blocks around place `i`, innermost first, and know the indentation
of their headers. -/
structure Stacked (lines : Array LogicalLine) (i : Nat) (frames : List Frame) : Prop where
  sorted : frames.Pairwise fun f g => g.index < f.index ∧ g.indent < f.indent
  header : ∀ f ∈ frames, ∃ header, lines[f.index]? = some header ∧ header.indent = f.indent
  mem : ∀ p, (∃ f ∈ frames, f.index = p) ↔ Encloses lines p i

/-- Of frames with decreasing indentation those stay that are indented less than the statement. -/
theorem Builder.mem_enclosing {frames : List Frame} {indent : Nat} {f : Frame}
    (hsorted : frames.Pairwise fun f g => g.indent < f.indent) :
    f ∈ enclosing frames indent ↔ f ∈ frames ∧ f.indent < indent := by
  induction hsorted with
  | nil => simp [enclosing]
  | @cons g frames hg _ ih =>
    by_cases hindent : indent ≤ g.indent
    · have hskip : enclosing (g :: frames) indent = enclosing frames indent := by
        simp [enclosing, hindent]
      rw [hskip, ih, List.mem_cons]
      grind
    · have hkeep : enclosing (g :: frames) indent = g :: frames := by
        simp [enclosing, hindent]
      rw [hkeep]
      grind

namespace Stacked

variable {lines : Array LogicalLine} {line : LogicalLine} {i : Nat} {frames : List Frame}

theorem index_lt (h : Stacked lines i frames) {f : Frame} (hf : f ∈ frames) : f.index < i :=
  ((h.mem f.index).1 ⟨f, hf, rfl⟩).lt

/-- The frames that stay open at a new line are those of the blocks around it. -/
theorem enclosing (h : Stacked lines lines.size frames) (line : LogicalLine) :
    Stacked (lines.push line) lines.size (Builder.enclosing frames line.indent) := by
  have hstays {f : Frame} :
      f ∈ Builder.enclosing frames line.indent ↔ f ∈ frames ∧ f.indent < line.indent :=
    Builder.mem_enclosing (h.sorted.imp fun h => h.2)
  refine ⟨h.sorted.sublist (List.dropWhile_sublist _), fun f hf => ?_, fun p => ?_⟩
  · have hf := (hstays.1 hf).1
    obtain ⟨header, hheader, hindent⟩ := h.header f hf
    exact ⟨header, by grind, hindent⟩
  · rw [encloses_push_size, ← h.mem]
    constructor
    · rintro ⟨f, hf, rfl⟩
      obtain ⟨hf, hindent⟩ := hstays.1 hf
      obtain ⟨header, hheader, heq⟩ := h.header f hf
      exact ⟨⟨f, hf, rfl⟩, header, hheader, heq ▸ hindent⟩
    · rintro ⟨⟨f, hf, rfl⟩, header, hheader, hindent⟩
      obtain ⟨header', hheader', heq⟩ := h.header f hf
      obtain rfl : header = header' := by simpa [hheader] using hheader'
      exact ⟨f, hstays.2 ⟨hf, heq ▸ hindent⟩, rfl⟩

/-- A line that opens no block leaves the stack as it is. -/
theorem keep (h : Stacked (lines.push line) lines.size frames) (hopens : line.opensBlock = false) :
    Stacked (lines.push line) (lines.size + 1) frames := by
  refine ⟨h.sorted, h.header, fun p => ?_⟩
  rw [h.mem, encloses_push_succ]
  simp [hopens]

/-- A line that opens a block puts it on the stack. -/
theorem push (h : Stacked (lines.push line) lines.size frames) (hopens : line.opensBlock = true)
    (element : Option Nat) :
    Stacked (lines.push line) (lines.size + 1) (⟨line.indent, lines.size, element⟩ :: frames) := by
  refine ⟨.cons (fun f hf => ⟨h.index_lt hf, ?_⟩) h.sorted, ?_, fun p => ?_⟩
  · obtain ⟨-, header, hheader, -, hindent⟩ := (h.mem f.index).1 ⟨f, hf, rfl⟩
    obtain ⟨header', hheader', heq⟩ := h.header f hf
    obtain rfl : header = header' := by simpa [hheader] using hheader'
    rw [← heq]
    exact hindent lines.size line (h.index_lt hf) le_rfl (by simp)
  · rw [List.forall_mem_cons]
    exact ⟨⟨line, by simp, rfl⟩, h.header⟩
  · rw [encloses_push_succ, ← h.mem]
    simp [hopens, or_comm, eq_comm]

end Stacked

/-! ### The headers around a line -/

/-- The index of a line is its place, and the headers around it are those of the rule, outermost
first. -/
structure OffSide (lines : Array LogicalLine) : Prop where
  index : ∀ {i : Nat} {line : LogicalLine}, lines[i]? = some line → line.index = i
  sorted : ∀ {i : Nat} {line : LogicalLine}, lines[i]? = some line → line.parents.Pairwise (· < ·)
  mem_parents : ∀ {i : Nat} {line : LogicalLine}, lines[i]? = some line →
    ∀ p, p ∈ line.parents ↔ Encloses lines p i

/-- A line whose headers are taken from the stack can be added. -/
theorem OffSide.push {lines : Array LogicalLine} {line : LogicalLine} {frames : List Frame}
    (h : OffSide lines) (hframes : Stacked (lines.push line) lines.size frames)
    (hindex : line.index = lines.size) (hparents : line.parents = (frames.map (·.index)).reverse) :
    OffSide (lines.push line) := by
  refine ⟨fun hl => ?_, fun hl => ?_, fun hl p => ?_⟩
  · rcases line_of_push hl with ⟨hl, hi⟩ | ⟨rfl, rfl⟩
    · exact h.index hl
    · exact hindex
  · rcases line_of_push hl with ⟨hl, hi⟩ | ⟨rfl, rfl⟩
    · exact h.sorted hl
    · rw [hparents, List.pairwise_reverse, List.pairwise_map]
      exact hframes.sorted.imp fun h => h.1
  · rcases line_of_push hl with ⟨hl, hi⟩ | ⟨rfl, rfl⟩
    · rw [h.mem_parents hl, encloses_push hi]
    · rw [hparents, ← hframes.mem]
      simp

namespace Builder

/-- The stack holds the open blocks, and each line has the headers of the rule. -/
structure Nested (b : Builder) : Prop where
  lines : OffSide b.lines
  frames : Stacked b.lines b.lines.size b.frames

theorem nested_empty : empty.Nested := by
  refine ⟨⟨?_, ?_, ?_⟩, ⟨.nil, by simp [empty], ?_⟩⟩ <;> simp [empty, Encloses]

/-- The frames that stay open at a statement are those of the blocks around its line. -/
theorem Nested.enclosing {b : Builder} (h : b.Nested) (statement : Statement)
    (header : Option Header) :
    Stacked (b.lines.push (b.nextLine statement header)) b.lines.size
      (enclosing b.frames statement.indent) :=
  h.frames.enclosing (b.nextLine statement header)

theorem Nested.offSide_push {b : Builder} (h : b.Nested) (statement : Statement)
    (header : Option Header) : OffSide (b.lines.push (b.nextLine statement header)) :=
  h.lines.push (h.enclosing statement header) rfl rfl

/-- A statement keeps the nesting. -/
theorem Nested.step {b b' : Builder} {statement : Statement} {header : Option Header}
    {element : Option Nat} (h : b.Nested) (added : Added b statement b' header element) :
    b'.Nested := by
  have hframes := h.enclosing statement header
  refine ⟨?_, ?_⟩
  · rw [added.lines]
    exact h.offSide_push statement header
  · rw [added.lines, added.frames, Array.size_push]
    by_cases hopens : (b.nextLine statement header).opensBlock = true
    · rw [if_pos hopens]
      exact hframes.push hopens element
    · rw [if_neg hopens]
      exact hframes.keep (Bool.eq_false_iff.2 hopens)

end Builder

end CodeGrade
