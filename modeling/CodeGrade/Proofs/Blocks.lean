import CodeGrade.Proofs.OffSide

/-!
# The blocks of an outline

The headers around a line form a chain: each of them stands inside all those before it. A header
whose block is expected below it gets one, as the outline is refused otherwise. So the headers
around a line are told by the innermost of them, and the first line below a header has the header
itself as the innermost.

## Main definitions

* `Builder.Awaits`: a header without a line below it is awaiting one.
* `Outline.Blocks`: the blocks of an outline follow the off-side rule.
-/

namespace CodeGrade

/-! ### Chains of headers -/

namespace OffSide

variable {lines : Array LogicalLine} {header line : LogicalLine} {i p : Nat}

/-- The headers around a line are those around the innermost of them, and that one. -/
theorem parents_eq_append (h : OffSide lines) (hheader : lines[p]? = some header)
    (hline : lines[i]? = some line) (hp : Encloses lines p i)
    (hinnermost : ∀ q, Encloses lines q i → q ≤ p) : line.parents = header.parents ++ [p] := by
  have hsorted : (header.parents ++ [p]).Pairwise (· < ·) := by
    refine List.pairwise_append.2 ⟨h.sorted hheader, List.pairwise_singleton _ _, ?_⟩
    intro q hq r hr
    rw [List.mem_singleton.1 hr]
    exact ((h.mem_parents hheader q).1 hq).lt
  -- Both lists are increasing, so it is enough that they have the same members.
  refine (h.sorted hline).eq_of_mem_iff hsorted fun q => ?_
  rw [List.mem_append, List.mem_singleton, h.mem_parents hline, h.mem_parents hheader]
  constructor
  · intro hq
    rcases (hinnermost q hq).lt_or_eq with hlt | heq
    · exact .inl (hq.of_le hlt hp.lt.le)
    · exact .inr heq
  · rintro (hq | rfl)
    · exact hq.trans hp
    · exact hp

/-- Headers around one line are indented further and further. -/
theorem exists_headers (h : OffSide lines) (hline : lines[i]? = some line) :
    ∃ headers : List LogicalLine, (∀ header ∈ headers, header ∈ lines) ∧
      headers.map (·.index) = line.parents ∧
      headers.Pairwise fun f g => f.index < g.index ∧ f.indent < g.indent := by
  refine ⟨line.parents.filterMap (lines[·]?), ?_, ?_, ?_⟩
  · intro header hheader
    obtain ⟨q, -, hq⟩ := List.mem_filterMap.1 hheader
    exact Array.mem_of_getElem? hq
  · have hindex : ∀ q ∈ line.parents, lines[q]?.map (·.index) = some q := by
      intro q hq
      obtain ⟨-, header, hheader, -⟩ := (h.mem_parents hline q).1 hq
      rw [hheader, Option.map_some, h.index hheader]
    rw [List.map_filterMap, List.filterMap_congr hindex, List.filterMap_some]
  · refine List.Pairwise.filterMap _ ?_ ((h.sorted hline).imp_of_mem (S := Encloses lines) ?_)
    · rintro q r ⟨hlt, outer, houter, -, hindent⟩ f hf g hg
      obtain rfl : outer = f := Option.some.inj (houter.symm.trans hf)
      rw [h.index hf, h.index hg]
      exact ⟨hlt, hindent r g hlt le_rfl hg⟩
    · intro q r hq hr hlt
      have hr := (h.mem_parents hline r).1 hr
      exact ((h.mem_parents hline q).1 hq).of_le hlt hr.lt.le

end OffSide

/-! ### Headers get their blocks -/

namespace Builder

theorem missingBlock?_eq_none {header : LogicalLine} {indent : Nat} :
    missingBlock? (some header) (some indent) = none ↔ header.indent < indent := by
  simp [missingBlock?]

/-- Each header of a block is followed by a line of the block, or it is the last line and the block
is awaited. -/
def Awaits (b : Builder) : Prop :=
  ∀ (i : Nat) (line : LogicalLine), b.lines[i]? = some line → line.opensBlock = true →
    (i + 1 = b.lines.size ∧ b.awaiting = some line) ∨
      ∃ next, b.lines[i + 1]? = some next ∧ line.indent < next.indent

theorem awaits_empty : empty.Awaits := by
  intro i line hline
  simp [empty] at hline

theorem Awaits.step {b b' : Builder} {statement : Statement} {header : Option Header}
    {element : Option Nat} (h : b.Awaits) (added : Added b statement b' header element) :
    b'.Awaits := by
  intro i line hline hopens
  rw [added.lines] at hline ⊢
  rcases line_of_push hline with ⟨hold, hi⟩ | ⟨rfl, rfl⟩
  · right
    rcases h i line hold hopens with ⟨hlast, hawaiting⟩ | ⟨next, hnext, hindent⟩
    · have hbody : line.indent < statement.indent := by
        rw [← missingBlock?_eq_none, ← hawaiting]
        exact added.awaited
      rw [hlast]
      exact ⟨b.nextLine statement header, Array.getElem?_push_size, hbody⟩
    · have hsize := (Array.getElem?_eq_some_iff.1 hnext).1
      exact ⟨next, by rw [Array.getElem?_push_lt hsize, ← hnext]; simp [hsize], hindent⟩
  · left
    rw [added.awaiting, if_pos hopens, Array.size_push]
    exact ⟨rfl, rfl⟩

theorem awaits_of_steps {b : Builder} {statements : List Statement}
    (h : empty.steps statements = .ok b) : b.Awaits :=
  invariant h awaits_empty fun _ _ _ _ _ hb added => hb.step added

theorem nested_of_steps {b : Builder} {statements : List Statement}
    (h : empty.steps statements = .ok b) : b.Nested :=
  invariant h nested_empty fun _ _ _ _ _ hb added => hb.step added

/-- In a whole outline each header of a block is followed by a line of it. -/
theorem exists_body_of_steps {b : Builder} {statements : List Statement}
    (h : empty.steps statements = .ok b) {i : Nat} {line : LogicalLine}
    (hline : b.lines[i]? = some line) (hopens : line.opensBlock = true) :
    ∃ next, b.lines[i + 1]? = some next ∧ line.indent < next.indent := by
  rcases awaits_of_steps h i line hline hopens with ⟨-, hawaiting⟩ | hbody
  · simp [awaiting_of_steps h] at hawaiting
  · exact hbody

end Builder

/-- The blocks of an outline follow the off-side rule. -/
structure Outline.Blocks (outline : Outline) : Prop where
  index : ∀ (i : Nat) (line : LogicalLine), outline.lines[i]? = some line → line.index = i
  rule : ∀ (p i : Nat) (header line : LogicalLine), outline.lines[p]? = some header →
    outline.lines[i]? = some line →
    (header.index ∈ line.parents ↔ p < i ∧ header.opensBlock = true ∧
      ∀ m between, p < m → m ≤ i → outline.lines[m]? = some between →
        header.indent < between.indent)
  chain : ∀ line ∈ outline.lines, ∃ headers : List LogicalLine,
    (∀ header ∈ headers, header ∈ outline.lines) ∧ headers.map (·.index) = line.parents ∧
      headers.Pairwise fun f g => f.index < g.index ∧ f.indent < g.indent
  innermost : ∀ line ∈ outline.lines, ∀ p ∈ line.parents.getLast?,
    ∃ header, outline.lines[p]? = some header ∧ line.parents = header.parents ++ [p]
  body : ∀ (i : Nat) (header : LogicalLine), outline.lines[i]? = some header →
    header.opensBlock = true →
    ∃ next, outline.lines[i + 1]? = some next ∧ next.parents = header.parents ++ [header.index]

/-- The headers around the lines of an outline are those of the off-side rule. -/
theorem blocks_follow_offSide_rule {unit : SourceUnit} {outline : Outline}
    (houtline : Outline.ofUnit unit = .ok outline) : outline.Blocks := by
  obtain ⟨masked, b, -, hsteps, rfl⟩ := Outline.ofUnit_eq_ok.1 houtline
  have h := (Builder.nested_of_steps hsteps).lines
  refine ⟨fun i line => h.index, ?_, ?_, ?_, ?_⟩
  · intro p i header line hheader hline
    rw [h.index hheader, h.mem_parents hline]
    refine and_congr_right fun _ => ⟨?_, ?_⟩
    · rintro ⟨header', hheader', hopens, hindent⟩
      obtain rfl : header = header' := Option.some.inj (hheader.symm.trans hheader')
      exact ⟨hopens, hindent⟩
    · rintro ⟨hopens, hindent⟩
      exact ⟨header, hheader, hopens, hindent⟩
  · intro line hline
    obtain ⟨i, hi⟩ := Array.getElem?_of_mem hline
    exact h.exists_headers hi
  · intro line hline p hp
    obtain ⟨i, hi⟩ := Array.getElem?_of_mem hline
    obtain ⟨outer, hparents⟩ := List.getLast?_eq_some_iff.1 hp
    have hpi : Encloses b.lines p i := (h.mem_parents hi p).1 (by simp [hparents])
    obtain ⟨header, hheader, -⟩ := hpi.2
    refine ⟨header, hheader, h.parents_eq_append hheader hi hpi fun q hq => ?_⟩
    have hsorted := h.sorted hi
    rw [← h.mem_parents hi, hparents, List.mem_append, List.mem_singleton] at hq
    rw [hparents, List.pairwise_append] at hsorted
    rcases hq with hq | rfl
    · exact (hsorted.2.2 q hq p (by simp)).le
    · exact le_rfl
  · intro i header hheader hopens
    obtain ⟨next, hnext, hindent⟩ := Builder.exists_body_of_steps hsteps hheader hopens
    have hbody : Encloses b.lines i (i + 1) := by
      refine ⟨i.lt_succ_self, header, hheader, hopens, fun m between hm hmi hbetween => ?_⟩
      obtain rfl : m = i + 1 := by omega
      rwa [Option.some.inj (hbetween.symm.trans hnext)]
    refine ⟨next, hnext, ?_⟩
    rw [h.index hheader]
    exact h.parents_eq_append hheader hnext hbody fun q hq => Nat.le_of_lt_succ hq.lt

/-- A conditional inside another one, and a statement whose indentation is that of neither. -/
def irregularDedent : SourceUnit where
  name := "dedent"
  lines := ["if a:".toList, "    if b:".toList, "        x".toList, "  y".toList, "z".toList]

theorem irregularDedent_blocks :
    ∃ outline, Outline.ofUnit irregularDedent = .ok outline ∧
      outline.lines.map (·.parents) = #[[], [0], [0, 1], [0], []] ∧ outline.Blocks := by
  have hread : (Outline.ofUnit irregularDedent).map (·.lines.map (·.parents)) =
      .ok #[[], [0], [0, 1], [0], []] := by decide +kernel
  obtain ⟨outline, houtline, hparents⟩ := ok_map_iff.1 hread
  exact ⟨outline, houtline, hparents, blocks_follow_offSide_rule houtline⟩

end CodeGrade
