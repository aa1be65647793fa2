import CodeGrade.Proofs.Forest

/-!
# What stands inside an element

A statement stands inside an element in three senses: the element's header is among the headers
around the statement, the element is an ancestor of the statement's owner or the owner itself, and
the statement starts in the element's span of lines. They agree.

## Main definitions

* `Element.Spans`: a line starts in an element's span.
* `Outline.Owns`: an element is the owner of a line, or an ancestor of it.
-/

namespace CodeGrade

/-- The line starts in the element's span, after the element's first line. -/
def Element.Spans (e : Element) (line : LogicalLine) : Prop :=
  e.startLine < line.startLine ∧ line.startLine ≤ e.endLine

/-- Element `k` is the owner of the line, or an ancestor of it. -/
def Outline.Owns (outline : Outline) (k : Nat) (line : LogicalLine) : Prop :=
  ∃ o, line.owner = some o ∧ Relation.ReflTransGen outline.ParentOf k o

theorem Outline.mem_bodyOf {outline : Outline} {header line : LogicalLine} :
    line ∈ outline.bodyOf header ↔ line ∈ outline.lines ∧ header.index ∈ line.parents := by
  simp [Outline.bodyOf]

namespace Outline.WellNested

variable {outline : Outline} {n : Nat} {i k l : Nat} {header line : LogicalLine} {e : Element}

theorem owns_iff_encloses (h : outline.WellNested n) (hk : outline.Heads i k header e)
    (hline : outline.lines[l]? = some line) :
    outline.Owns k line ↔ Encloses outline.lines i l := by
  constructor
  · rintro ⟨o, ho, hancestor⟩
    obtain ⟨q, header', e', hq, hql⟩ := h.heads_owner hline ho
    rcases Relation.reflTransGen_iff_eq_or_transGen.1 hancestor with rfl | hancestor
    · rwa [place?_inj hk.place hq.place]
    · exact ((h.ancestor_iff_encloses hk hq).1 hancestor).trans hql
  · intro hil
    obtain ⟨o, q, header', e', ho, hq, -, hinner⟩ := h.exists_owner hk hline hil
    refine ⟨o, ho, ?_⟩
    rcases hinner with rfl | hinner
    · exact .refl
    · exact ((h.ancestor_iff_encloses hk hq).2 hinner).to_reflTransGen

/-- The owner of a line spans it, and no element that spans it begins later. -/
theorem spans_owner (h : outline.WellNested n) (hline : outline.lines[l]? = some line) {o : Nat}
    (ho : line.owner = some o) :
    ∃ e, outline.elements[o]? = some e ∧ e.Spans line ∧
      ∀ d ∈ outline.elements, d.Spans line → d.startLine ≤ e.startLine := by
  obtain ⟨q, header, e, hq, hql⟩ := h.heads_owner hline ho
  refine ⟨e, hq.element, (h.encloses_iff_span hq hline).1 hql, fun d hd hspans => ?_⟩
  obtain ⟨k, hd⟩ := Array.getElem?_of_mem hd
  obtain ⟨i, header', hk⟩ := h.exists_heads hd
  have hil := (h.encloses_iff_span hk hline).2 hspans
  obtain ⟨o', q', header'', e', ho', hq', -, hinner⟩ := h.exists_owner hk hline hil
  obtain rfl : o = o' := Option.some.inj (ho.symm.trans ho')
  obtain rfl : e = e' := Option.some.inj (hq.element.symm.trans hq'.element)
  rcases hinner with rfl | hinner
  · rw [Option.some.inj (hd.symm.trans hq.element)]
  · exact (h.span_le hk hq' hinner).1.le

/-- A line that an element spans has an owner. -/
theorem exists_owner_of_spans (h : outline.WellNested n) (hline : outline.lines[l]? = some line)
    (he : e ∈ outline.elements) (hspans : e.Spans line) : ∃ o, line.owner = some o := by
  obtain ⟨k, he⟩ := Array.getElem?_of_mem he
  obtain ⟨i, header, hk⟩ := h.exists_heads he
  obtain ⟨o, -, -, -, ho, -⟩ :=
    h.exists_owner hk hline ((h.encloses_iff_span hk hline).2 hspans)
  exact ⟨o, ho⟩

/-- The owner of a line is the element that begins last among those that span it. -/
theorem owner_eq_some_iff (h : outline.WellNested n) (hline : outline.lines[l]? = some line)
    {o : Nat} :
    line.owner = some o ↔ ∃ e, outline.elements[o]? = some e ∧ e.Spans line ∧
      ∀ d ∈ outline.elements, d.Spans line → d.startLine ≤ e.startLine := by
  refine ⟨h.spans_owner hline, fun ⟨e, he, hspans, hlast⟩ => ?_⟩
  obtain ⟨o', ho'⟩ := h.exists_owner_of_spans hline (Array.mem_of_getElem? he) hspans
  obtain ⟨d, hd, hspans', hlast'⟩ := h.spans_owner hline ho'
  have hle := hlast d (Array.mem_of_getElem? hd) hspans'
  have hge := hlast' e (Array.mem_of_getElem? he) hspans
  rcases lt_trichotomy o o' with hlt | rfl | hlt
  · have := h.element_startLine_lt he hd hlt
    omega
  · exact ho'
  · have := h.element_startLine_lt hd he hlt
    omega

theorem owner_eq_none_iff (h : outline.WellNested n) (hline : outline.lines[l]? = some line) :
    line.owner = none ↔ ∀ e ∈ outline.elements, ¬ e.Spans line := by
  constructor
  · intro hnone e he hspans
    obtain ⟨o, ho⟩ := h.exists_owner_of_spans hline he hspans
    simp [hnone] at ho
  · intro hnone
    by_contra howner
    obtain ⟨o, ho⟩ := Option.ne_none_iff_exists'.1 howner
    obtain ⟨e, he, hspans, -⟩ := h.spans_owner hline ho
    exact hnone e (Array.mem_of_getElem? he) hspans

end Outline.WellNested

/-- The three ways to say that a statement stands inside an element agree, and the owner of a
statement is the element that begins last among those around it. -/
theorem containment_agrees {unit : SourceUnit} {outline : Outline}
    (houtline : Outline.ofUnit unit = .ok outline) {line : LogicalLine}
    (hline : line ∈ outline.lines) :
    (∀ (k : Nat) (e : Element) (header : LogicalLine), outline.elements[k]? = some e →
      (outline.lines.toList.filter (·.isElementHeader))[k]? = some header →
      (header.index ∈ line.parents ↔ line ∈ outline.bodyOf header) ∧
      (header.index ∈ line.parents ↔ outline.Owns k line) ∧
      (header.index ∈ line.parents ↔ e.Spans line)) ∧
    (∀ o, line.owner = some o ↔ ∃ e, outline.elements[o]? = some e ∧ e.Spans line ∧
      ∀ d ∈ outline.elements, d.Spans line → d.startLine ≤ e.startLine) ∧
    (line.owner = none ↔ ∀ e ∈ outline.elements, ¬ e.Spans line) := by
  have h := Outline.wellNested houtline
  obtain ⟨l, hl⟩ := Array.getElem?_of_mem hline
  refine ⟨fun k e header he hheader => ?_, fun o => h.owner_eq_some_iff hl, h.owner_eq_none_iff hl⟩
  obtain ⟨i, header', hk⟩ := h.exists_heads he
  obtain rfl : header = header' :=
    Option.some.inj (hheader.symm.trans (getElem?_filter_of_place hk.line hk.place))
  have hparents : header.index ∈ line.parents ↔ Encloses outline.lines i l := by
    rw [h.offSide.index hk.line, h.offSide.mem_parents hl]
  refine ⟨?_, ?_, ?_⟩
  · simp [Outline.mem_bodyOf, hline]
  · rw [hparents, h.owns_iff_encloses hk hl]
  · rw [hparents, h.encloses_iff_span hk hl]
    rfl

/-- The statement of a method stands inside the class. -/
theorem method_body_in_class :
    ∃ outline line e header, Outline.ofUnit classWithMethod = .ok outline ∧
      line ∈ outline.lines ∧ outline.elements[0]? = some e ∧
      (outline.lines.toList.filter (·.isElementHeader))[0]? = some header ∧
      header.index ∈ line.parents ∧ outline.Owns 0 line ∧ e.Spans line ∧ line.owner = some 1 := by
  have hread : (Outline.ofUnit classWithMethod).map (fun outline =>
      (outline.lines[2]?.map fun line => (line.parents, line.owner), outline.elements.size,
        (outline.lines.toList.filter (·.isElementHeader))[0]?.map (·.index))) =
      .ok (some ([0, 1], some 1), 2, some 0) := by decide +kernel
  obtain ⟨outline, houtline, hread⟩ := ok_map_iff.1 hread
  simp only [Prod.mk.injEq, Option.map_eq_some_iff] at hread
  obtain ⟨⟨line, hline, hparents, howner⟩, hsize, header, hheader, hindex⟩ := hread
  have he := Array.getElem?_eq_getElem (show 0 < outline.elements.size by omega)
  have hmem : header.index ∈ line.parents := by simp [hparents, hindex]
  have hline := Array.mem_of_getElem? hline
  obtain ⟨-, howns, hspans⟩ := (containment_agrees houtline hline).1 0 _ header he hheader
  exact ⟨outline, line, _, header, houtline, hline, he, hheader, hmem, howns.1 hmem, hspans.1 hmem,
    howner⟩

end CodeGrade
