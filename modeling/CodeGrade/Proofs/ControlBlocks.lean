import CodeGrade.Proofs.Blocks
import CodeGrade.Proofs.Forest
import CodeGrade.Rule.Handling
import CodeGrade.Rule.Size

/-!
# Control blocks and owners

The control blocks around a statement are found on the way down through the headers around it, which
starts anew at each definition. The owner of a statement is the innermost definition on the stack of
open blocks. Both stop at the same place: the control blocks around a statement are the headers
around it that have its owner. So a `try` guards the statements of its own function only, and the
depth of a function counts the headers that the function owns.

## Main definitions

* `Outline.headersAround`: the headers around a statement.
* `Outline.ownDepth`: how deep the statements of an element stand in the blocks that it owns.
* `nestingMatch`: what is reported of a function that is nested too deeply.
-/

namespace CodeGrade

/-- The headers around a statement, outermost first. -/
def Outline.headersAround (outline : Outline) (line : LogicalLine) : List LogicalLine :=
  line.parents.filterMap (outline.lines[·]?)

/-- The largest number of headers of one owner around a statement of that owner; zero if there is no
statement. -/
def Outline.ownDepth (outline : Outline) (owner : Nat) : Nat :=
  ((outline.ownLines owner).map fun line =>
    (outline.headersAround line).countP (·.owner = some owner)).max?.getD 0

/-- What is reported of a function that nests control blocks to the given depth. -/
def nestingMatch (thresholds : Thresholds) (e : Element) (depth : Nat) : Match :=
  let name := String.ofList e.name
  let limit := Decimal.natText thresholds.maxNestingDepth
  { line := e.startLine
    message := s!"Function '{name}' nests control blocks {depth} levels deep (>{limit})"
    suggestion := some "Use early returns or extract the inner blocks" }

/-! ### The innermost header -/

/-- A line stands in no block, or the headers around it are those around the innermost of them, and
that one. -/
theorem OffSide.parents_cases {lines : Array LogicalLine} {line : LogicalLine} {i : Nat}
    (h : OffSide lines) (hline : lines[i]? = some line) :
    line.parents = [] ∨ ∃ p header, lines[p]? = some header ∧ Encloses lines p i ∧
      line.parents = header.parents ++ [p] := by
  rcases List.eq_nil_or_concat line.parents with hnil | ⟨outer, p, hparents⟩
  · exact .inl hnil
  · right
    have hp : Encloses lines p i := (h.mem_parents hline p).1 (by simp [hparents])
    obtain ⟨header, hheader, -⟩ := hp.2
    refine ⟨p, header, hheader, hp, h.parents_eq_append hheader hline hp fun q hq => ?_⟩
    have hsorted := h.sorted hline
    rw [← h.mem_parents hline, hparents, List.concat_eq_append, List.mem_append,
      List.mem_singleton] at hq
    rw [hparents, List.concat_eq_append, List.pairwise_append] at hsorted
    rcases hq with hq | rfl
    · exact (hsorted.2.2 q hq p (by simp)).le
    · exact le_rfl

namespace Outline.WellNested

variable {outline : Outline} {n i p : Nat} {header line : LogicalLine}

/-- A statement right inside a definition belongs to it, and one right inside a control block to
what the block belongs to. -/
theorem owner_eq (h : outline.WellNested n) (hheader : outline.lines[p]? = some header)
    (hline : outline.lines[i]? = some line) (hparents : line.parents = header.parents ++ [p]) :
    line.owner = (place? outline.lines p).or header.owner := by
  have haround : line.around outline.lines =
      header.around outline.lines ++ (place? outline.lines p).toList := by
    rw [LogicalLine.around, hparents, List.filterMap_append, LogicalLine.around]
    cases hplace : place? outline.lines p <;> simp [hplace]
  rw [h.owner hline, haround, h.owner hheader, List.getLast?_append]
  cases place? outline.lines p <;> rfl

/-- What a header around a definition belongs to comes before the definition. -/
theorem owner_ne_place (h : outline.WellNested n) (hline : outline.lines[i]? = some line)
    (hp : i ≤ p) {k : Nat} (hplace : place? outline.lines p = some k) :
    line.owner ≠ some k := by
  intro howner
  obtain ⟨q, header, e, hq, hqi⟩ := h.heads_owner hline howner
  have := place?_inj hq.place hplace
  have := hqi.lt
  omega

/-! ### Walking down the headers -/

/-- The control blocks around a statement are the headers around it that have its owner. -/
theorem controlParents_eq (h : outline.WellNested n) (hline : outline.lines[i]? = some line) :
    outline.controlParents line =
      (outline.headersAround line).filter (·.owner = line.owner) := by
  -- From the statement outwards: the innermost header around it stands on an earlier line.
  induction i using Nat.strong_induction_on generalizing line with
  | _ i ih =>
    rcases h.offSide.parents_cases hline with hnil | ⟨p, header, hheader, hpi, hparents⟩
    · simp [controlParents, headersAround, hnil]
    · have hchain : outline.controlParents line =
          outline.extendChain (outline.controlParents header) p := by
        rw [controlParents, hparents, List.foldl_append]
        rfl
      have haround : outline.headersAround line = outline.headersAround header ++ [header] := by
        simp [headersAround, hparents, hheader]
      rw [hchain, haround, extendChain, hheader, h.owner_eq hheader hline hparents]
      cases hdefinition : header.isElementHeader with
      | true =>
        -- All headers belong to something that starts before the definition, or to nothing.
        have hplace : place? outline.lines p = some (headersBefore outline.lines p) :=
          place?_eq_some.2 ⟨header, hheader, hdefinition, rfl⟩
        have houter : ∀ outer ∈ outline.headersAround header ++ [header],
            outer.owner ≠ some (headersBefore outline.lines p) := by
          rw [← haround]
          intro outer houter
          obtain ⟨q, hq, houter⟩ := List.mem_filterMap.1 houter
          have hqi := (h.offSide.mem_parents hline q).1 hq
          refine h.owner_ne_place houter ?_ hplace
          rw [hparents, List.mem_append, List.mem_singleton] at hq
          rcases hq with hq | rfl
          · exact ((h.offSide.mem_parents hheader q).1 hq).lt.le
          · exact le_rfl
        rw [hplace, Option.some_or]
        simp only [hdefinition, ↓reduceIte]
        symm
        rw [List.filter_eq_nil_iff]
        intro outer hmem
        simpa using houter outer hmem
      | false =>
        have hplace : place? outline.lines p = none := by simp [place?, hheader, hdefinition]
        rw [hplace, Option.none_or, ih p hpi.lt hheader]
        simp [hdefinition]

/-! ### What the rules make of it -/

theorem eq_of_startLine (h : outline.WellNested n) {a b : LogicalLine} (ha : a ∈ outline.lines)
    (hb : b ∈ outline.lines) (hstart : a.startLine = b.startLine) : a = b := by
  obtain ⟨i, hi⟩ := Array.getElem?_of_mem ha
  obtain ⟨j, hj⟩ := Array.getElem?_of_mem hb
  have hlt := h.startLine_lt_iff hi hj
  have hgt := h.startLine_lt_iff hj hi
  obtain rfl : i = j := by omega
  exact Option.some.inj (hi.symm.trans hj)

theorem isGuarded_iff (h : outline.WellNested n) (hline : line ∈ outline.lines) :
    isGuarded outline line = true ↔ line.keyword = some .tryKw ∨
      ∃ header ∈ outline.headersAround line,
        header.keyword = some .tryKw ∧ header.owner = line.owner := by
  obtain ⟨i, hi⟩ := Array.getElem?_of_mem hline
  simp only [isGuarded, h.controlParents_eq hi, Bool.or_eq_true, decide_eq_true_eq,
    List.any_eq_true, List.mem_filter]
  grind

theorem nestingDepth_eq (h : outline.WellNested n) (k : Nat) :
    nestingDepth outline k = outline.ownDepth k := by
  have hdepths : (outline.ownLines k).map (fun line => (outline.controlParents line).length) =
      (outline.ownLines k).map fun line =>
        (outline.headersAround line).countP (·.owner = some k) := by
    refine List.map_congr_left fun line hline => ?_
    obtain ⟨hmem, howner⟩ := List.mem_filter.1 hline
    obtain ⟨i, hi⟩ := Array.getElem?_of_mem (Array.mem_toList_iff.1 hmem)
    rw [h.controlParents_eq hi, of_decide_eq_true howner, List.countP_eq_length_filter]
  rw [nestingDepth, hdepths, ownDepth]
  cases (outline.ownLines k).map fun line =>
    (outline.headersAround line).countP (·.owner = some k) with
  | nil => rfl
  | cons depth depths => rw [List.max?_cons', List.foldl_cons, Nat.zero_max, Option.getD_some]

end Outline.WellNested

theorem LineNumber.ofNat_inj {a b : Nat} : LineNumber.ofNat a = .ofNat b ↔ a = b := by
  simp [LineNumber.ofNat]

/-- The statements that are reported for unguarded calls. -/
theorem exists_unguardedCalls_iff {c : Context} {n : Nat} (h : c.outline.WellNested n)
    {line : LogicalLine} (hline : line ∈ c.outline.lines) :
    (∃ m ∈ unguardedCalls c, m.line = line.startLine) ↔
      calls ioCallees line.code = true ∧ isGuarded c.outline line = false := by
  constructor
  · rintro ⟨m, hm, hstart⟩
    obtain ⟨line', hline', hm⟩ := List.mem_filterMap.1 hm
    cases hcall : findCall? ioCallees line'.code with
    | none => simp [hcall] at hm
    | some call =>
      cases hguarded : isGuarded c.outline line' with
      | true => simp [hcall, hguarded] at hm
      | false =>
        simp only [hcall, hguarded, Bool.false_eq_true, ↓reduceIte, Option.some.injEq] at hm
        rw [← hm, LineNumber.ofNat_inj] at hstart
        obtain rfl := h.eq_of_startLine (Array.mem_toList_iff.1 hline') hline hstart
        exact ⟨by simp [calls, hcall], hguarded⟩
  · rintro ⟨hcalls, hguarded⟩
    obtain ⟨call, hcall⟩ := Option.isSome_iff_exists.1 hcalls
    refine ⟨?reported, List.mem_filterMap.2 ⟨line, Array.mem_toList_iff.2 hline, ?found⟩, ?start⟩
    case found =>
      simp only [hcall, hguarded, Bool.false_eq_true, ↓reduceIte]
      rfl
    case start => rfl

theorem Outline.WellNested.eq_of_mem_functions {outline : Outline} {n : Nat}
    (h : outline.WellNested n) {f g : Element × Nat} (hf : f ∈ outline.functions)
    (hg : g ∈ outline.functions) (hstart : f.1.startLine = g.1.startLine) : f = g := by
  have hf' : outline.elements[f.2]? = some f.1 := by
    simpa using List.mem_zipIdx_iff_getElem?.1 (List.mem_of_mem_filter hf)
  have hg' : outline.elements[g.2]? = some g.1 := by
    simpa using List.mem_zipIdx_iff_getElem?.1 (List.mem_of_mem_filter hg)
  have hplace : f.2 = g.2 := by
    rcases lt_trichotomy f.2 g.2 with hlt | heq | hlt
    · have := h.element_startLine_lt hf' hg' hlt
      omega
    · exact heq
    · have := h.element_startLine_lt hg' hf' hlt
      omega
  rw [hplace] at hf'
  exact Prod.ext (Option.some.inj (hf'.symm.trans hg')) hplace

/-- The functions that are reported for deep nesting, and what is said of them. -/
theorem mem_deepNesting_iff {c : Context} {n : Nat} (h : c.outline.WellNested n)
    {f : Element × Nat} (hf : f ∈ c.outline.functions) (m : Match) :
    m ∈ deepNesting c ∧ m.line = f.1.startLine ↔
      c.thresholds.maxNestingDepth < nestingDepth c.outline f.2 ∧
        m = nestingMatch c.thresholds f.1 (nestingDepth c.outline f.2) := by
  constructor
  · rintro ⟨hm, hstart⟩
    obtain ⟨g, hg, hm⟩ := List.mem_filterMap.1 hm
    simp only [Option.ite_none_right_eq_some, Option.some.injEq] at hm
    obtain ⟨hdeep, rfl⟩ := hm
    rw [LineNumber.ofNat_inj] at hstart
    obtain rfl := h.eq_of_mem_functions hg hf hstart
    exact ⟨hdeep, rfl⟩
  · rintro ⟨hdeep, rfl⟩
    refine ⟨List.mem_filterMap.2 ⟨f, hf, ?_⟩, rfl⟩
    exact if_pos hdeep

/-- The control blocks around a statement are those of its owner. So a call that reads or writes is
reported unless it stands in a `try` of its own function, and the depth of a function is the largest
number of headers that it owns around one of its statements. -/
theorem controlParents_share_owner {unit : SourceUnit} {outline : Outline}
    (houtline : Outline.ofUnit unit = .ok outline) (thresholds : Thresholds) :
    (∀ line ∈ outline.lines, outline.controlParents line =
      (outline.headersAround line).filter (·.owner = line.owner)) ∧
    (∀ line ∈ outline.lines, calls ioCallees line.code = true →
      ((∃ m ∈ unguardedCalls ⟨unit, outline, thresholds⟩, m.line = line.startLine) ↔
        line.keyword ≠ some .tryKw ∧ ∀ header ∈ outline.headersAround line,
          header.keyword = some .tryKw → header.owner ≠ line.owner)) ∧
    ∀ f ∈ outline.functions, ∀ m,
      m ∈ deepNesting ⟨unit, outline, thresholds⟩ ∧ m.line = f.1.startLine ↔
        thresholds.maxNestingDepth < outline.ownDepth f.2 ∧
          m = nestingMatch thresholds f.1 (outline.ownDepth f.2) := by
  have h := Outline.wellNested houtline
  refine ⟨fun line hline => ?_, fun line hline hcalls => ?_, fun f hf m => ?_⟩
  · obtain ⟨i, hi⟩ := Array.getElem?_of_mem hline
    exact h.controlParents_eq hi
  · rw [@exists_unguardedCalls_iff ⟨unit, outline, thresholds⟩ _ h _ hline,
      ← Bool.not_eq_true, h.isGuarded_iff hline]
    simp [hcalls]
  · rw [@mem_deepNesting_iff ⟨unit, outline, thresholds⟩ _ h _ hf, h.nestingDepth_eq]

/-- A method inside a `try` of another function, and two calls in the `try`, one of them in the
method. -/
def guardedOutside : SourceUnit where
  name := "guarded"
  lines := ["def f():".toList, "    try:".toList, "        class A:".toList,
    "            def g(self):".toList, "                if a:".toList,
    "                    open(b)".toList, "        open(c)".toList,
    "    except E:".toList, "        pass".toList]

/-- The call in the method is reported although it stands in the `try`, the other one is not. -/
theorem guardedOutside_reported :
    ∃ outline inner outer, Outline.ofUnit guardedOutside = .ok outline ∧
      outline.lines[5]? = some inner ∧ inner.parents = [0, 1, 2, 3, 4] ∧
      (outline.controlParents inner).map (·.index) = [4] ∧
      (∃ m ∈ unguardedCalls ⟨guardedOutside, outline, .standard⟩, m.line = inner.startLine) ∧
      outline.lines[6]? = some outer ∧ outer.parents = [0, 1] ∧
      ¬ ∃ m ∈ unguardedCalls ⟨guardedOutside, outline, .standard⟩, m.line = outer.startLine := by
  have hread : (Outline.ofUnit guardedOutside).map (fun outline =>
      (outline.lines[5]?.any fun line =>
        line.parents = [0, 1, 2, 3, 4] ∧ calls ioCallees line.code = true ∧
        (line.keyword ≠ some .tryKw ∧ ∀ header ∈ outline.headersAround line,
          header.keyword = some .tryKw → header.owner ≠ line.owner) ∧
        ((outline.headersAround line).filter (·.owner = line.owner)).map (·.index) = [4]) &&
      outline.lines[6]?.any fun line =>
        line.parents = [0, 1] ∧ calls ioCallees line.code = true ∧
        ∃ header ∈ outline.headersAround line,
          header.keyword = some .tryKw ∧ header.owner = line.owner) = .ok true := by
    decide +kernel
  obtain ⟨outline, houtline, hread⟩ := ok_map_iff.1 hread
  simp only [Bool.and_eq_true, Option.any_eq_true, decide_eq_true_eq] at hread
  obtain ⟨⟨inner, hinner, hparents, hcalls, hexposed, hindex⟩,
    outer, houter, hparents', hcalls', header, hheader, htry, howner⟩ := hread
  obtain ⟨hcontrol, hio, -⟩ := controlParents_share_owner houtline .standard
  have hmem := Array.mem_of_getElem? hinner
  have hmem' := Array.mem_of_getElem? houter
  refine ⟨outline, inner, outer, houtline, hinner, hparents, ?_, ?_, houter, hparents', ?_⟩
  · rw [hcontrol inner hmem, hindex]
  · exact (hio inner hmem hcalls).2 hexposed
  · exact fun hreported => ((hio outer hmem' hcalls').1 hreported).2 header hheader htry howner

end CodeGrade
