import CodeGrade.Proofs.Placing
import CodeGrade.Proofs.Statements

/-!
# The forest of elements

The elements of an outline form a forest by their parents, and their spans of lines are nested in
the same way: an element spans the lines of another one exactly if it is an ancestor of it. Both
come down to the blocks below the headers.

## Main definitions

* `Outline.WellNested`: what reading a unit establishes about its outline.
* `Outline.Heads`: a line is the header of an element.
* `Outline.ParentOf`: the parent link.
* `Outline.Forest`: the elements form a well-nested forest.
-/

namespace CodeGrade

/-- In the outline of `n` lines the statements follow one another, the headers around each line are
those of the off-side rule, and the elements are those of the definitions. -/
structure Outline.WellNested (outline : Outline) (n : Nat) : Prop where
  ordered : Ordered 1 (1 + n) (outline.lines.toList.map LogicalLine.statement)
  offSide : OffSide outline.lines
  owner : ∀ {i : Nat} {line : LogicalLine}, outline.lines[i]? = some line →
    line.owner = (line.around outline.lines).getLast?
  size : outline.elements.size = headersBefore outline.lines outline.lines.size
  element : ∀ {i k : Nat} {line : LogicalLine}, outline.lines[i]? = some line →
    place? outline.lines i = some k →
    ∃ e, outline.elements[k]? = some e ∧ Describes outline.elements outline.lines i line e

/-- Line `i` is the header of element `k`. -/
structure Outline.Heads (outline : Outline) (i k : Nat) (header : LogicalLine) (e : Element) :
    Prop where
  line : outline.lines[i]? = some header
  place : place? outline.lines i = some k
  element : outline.elements[k]? = some e
  describes : Describes outline.elements outline.lines i header e

/-- Element `a` is the parent of element `k`. -/
def Outline.ParentOf (outline : Outline) (a k : Nat) : Prop :=
  ∃ e, outline.elements[k]? = some e ∧ e.parent = some a

theorem Outline.wellNested {unit : SourceUnit} {outline : Outline}
    (houtline : Outline.ofUnit unit = .ok outline) : outline.WellNested unit.lines.length := by
  have hordered := ordered_outline houtline
  obtain ⟨masked, b, -, hsteps, rfl⟩ := Outline.ofUnit_eq_ok.1 houtline
  have h := Builder.described_of_steps hsteps
  exact ⟨hordered, h.placed.nested.lines, h.placed.owner, h.placed.size, h.element⟩

namespace Outline.WellNested

variable {outline : Outline} {n : Nat} {i j k l : Nat} {a b line header : LogicalLine}
  {d e : Element}

/-! ### Lines -/

theorem endLine_lt (h : outline.WellNested n) (ha : outline.lines[i]? = some a)
    (hb : outline.lines[j]? = some b) (hij : i < j) : a.endLine < b.startLine := by
  have hpairwise := List.pairwise_map.1 h.ordered.pairwise
  rw [← Array.getElem?_toList, List.getElem?_eq_some_iff] at ha hb
  obtain ⟨hi, rfl⟩ := ha
  obtain ⟨hj, rfl⟩ := hb
  exact List.pairwise_iff_getElem.1 hpairwise i j hi hj hij

theorem bounds (h : outline.WellNested n) (ha : outline.lines[i]? = some a) :
    1 ≤ a.startLine ∧ a.startLine ≤ a.endLine ∧ a.endLine ≤ n := by
  have hmem : a.statement ∈ outline.lines.toList.map LogicalLine.statement :=
    List.mem_map_of_mem (Array.mem_toList_iff.2 (Array.mem_of_getElem? ha))
  obtain ⟨hstart, hspan, hend⟩ := h.ordered.bounds _ hmem
  exact ⟨hstart, hspan, by simp only [LogicalLine.statement] at hend; omega⟩

theorem startLine_lt_iff (h : outline.WellNested n) (ha : outline.lines[i]? = some a)
    (hb : outline.lines[j]? = some b) : a.startLine < b.startLine ↔ i < j := by
  have hab := h.endLine_lt (i := i) (j := j) ha hb
  have hba := h.endLine_lt (i := j) (j := i) hb ha
  have := h.bounds ha
  have := h.bounds hb
  refine ⟨fun hlt => ?_, fun hij => by have := hab hij; omega⟩
  rcases lt_trichotomy i j with hij | rfl | hij
  · exact hij
  · grind
  · have := hba hij
    omega

/-! ### Headers -/

theorem heads_of_place (h : outline.WellNested n) (hplace : place? outline.lines i = some k) :
    ∃ header e, outline.Heads i k header e := by
  obtain ⟨header, hheader, -, -⟩ := place?_eq_some.1 hplace
  obtain ⟨e, he, hdescribes⟩ := h.element hheader hplace
  exact ⟨header, e, hheader, hplace, he, hdescribes⟩

theorem exists_heads (h : outline.WellNested n) (he : outline.elements[k]? = some e) :
    ∃ i header, outline.Heads i k header e := by
  have hk : k < headersBefore outline.lines outline.lines.size := by
    rw [← h.size]
    exact (Array.getElem?_eq_some_iff.1 he).1
  obtain ⟨i, hplace⟩ := exists_place hk
  obtain ⟨header, e', hheads⟩ := h.heads_of_place hplace
  obtain rfl : e = e' := Option.some.inj (he.symm.trans hheads.element)
  exact ⟨i, header, hheads⟩

theorem heads_startLine_lt_iff (h : outline.WellNested n) (hj : outline.Heads i j a d)
    (hk : outline.Heads l k b e) : d.startLine < e.startLine ↔ i < l := by
  rw [hj.describes.startLine, hk.describes.startLine, h.startLine_lt_iff hj.line hk.line]

/-- An element spans its block. -/
theorem endLine_le (h : outline.WellNested n) (hk : outline.Heads i k header e)
    (hline : outline.lines[l]? = some line) (hl : l = i ∨ Encloses outline.lines i l) :
    line.endLine ≤ e.endLine := by
  obtain ⟨m, last, hlast, hm, hend⟩ := hk.describes.endLine
  rw [hend]
  rcases (hlast.upper (Array.getElem?_eq_some_iff.1 hline).1 hl).lt_or_eq with hlm | rfl
  · have := h.endLine_lt hline hm hlm
    have := h.bounds hm
    omega
  · rw [Option.some.inj (hline.symm.trans hm)]

/-- A line stands in the block below a header exactly if it starts in the span of the header's
element, after the header. -/
theorem encloses_iff_span (h : outline.WellNested n) (hk : outline.Heads i k header e)
    (hline : outline.lines[l]? = some line) :
    Encloses outline.lines i l ↔ e.startLine < line.startLine ∧ line.startLine ≤ e.endLine := by
  rw [hk.describes.startLine, h.startLine_lt_iff hk.line hline]
  constructor
  · intro hil
    exact ⟨hil.lt, (h.bounds hline).2.1.trans (h.endLine_le hk hline (.inr hil))⟩
  · rintro ⟨hil, hle⟩
    obtain ⟨m, last, ⟨hlast, -⟩, hm, hend⟩ := hk.describes.endLine
    have hlm : l ≤ m := by
      by_contra hlm
      have := h.endLine_lt hm hline (by omega)
      omega
    rcases hlast with rfl | hlast
    · omega
    · exact hlast.of_le hil hlm

/-! ### Ancestors -/

theorem mem_around (h : outline.WellNested n) (hk : outline.Heads i k header e)
    (hline : outline.lines[l]? = some line) :
    k ∈ line.around outline.lines ↔ Encloses outline.lines i l := by
  rw [h.offSide.mem_around hline]
  constructor
  · rintro ⟨p, hp, hplace⟩
    rwa [place?_inj hk.place hplace]
  · exact fun hi => ⟨i, hi, hk.place⟩

/-- The owner of a line is the innermost element around it. -/
theorem around_owner (h : outline.WellNested n) (hline : outline.lines[l]? = some line) {o : Nat}
    (ho : line.owner = some o) :
    ∃ outer, line.around outline.lines = outer ++ [o] ∧ outer.Pairwise (· < ·) ∧
      ∀ k ∈ outer, k < o := by
  rw [h.owner hline, List.getLast?_eq_some_iff] at ho
  obtain ⟨outer, haround⟩ := ho
  have hsorted := h.offSide.sorted_around hline
  rw [haround, List.pairwise_append] at hsorted
  exact ⟨outer, haround, hsorted.1, fun k hk => hsorted.2.2 k hk o (by simp)⟩

theorem heads_owner (h : outline.WellNested n) (hline : outline.lines[l]? = some line) {o : Nat}
    (ho : line.owner = some o) :
    ∃ q header e, outline.Heads q o header e ∧ Encloses outline.lines q l := by
  obtain ⟨outer, haround, -, -⟩ := h.around_owner hline ho
  obtain ⟨q, hq, hplace⟩ := (h.offSide.mem_around hline o).1 (by simp [haround])
  obtain ⟨header, e, hheads⟩ := h.heads_of_place hplace
  exact ⟨q, header, e, hheads, hq⟩

/-- A header around a line is that of its owner, or it is around that of its owner. -/
theorem exists_owner (h : outline.WellNested n) (hk : outline.Heads i k header e)
    (hline : outline.lines[l]? = some line) (hi : Encloses outline.lines i l) :
    ∃ o q header' e', line.owner = some o ∧ outline.Heads q o header' e' ∧
      Encloses outline.lines q l ∧ (k = o ∨ Encloses outline.lines i q) := by
  have hmem := (h.mem_around hk hline).2 hi
  cases ho : line.owner with
  | none =>
    rw [h.owner hline, List.getLast?_eq_none_iff] at ho
    simp [ho] at hmem
  | some o =>
    obtain ⟨q, header', e', hq, hql⟩ := h.heads_owner hline ho
    obtain ⟨outer, haround, -, houter⟩ := h.around_owner hline ho
    refine ⟨o, q, header', e', rfl, hq, hql, ?_⟩
    rw [haround, List.mem_append, List.mem_singleton] at hmem
    refine hmem.symm.imp_right fun hmem => ?_
    exact hi.of_le ((place?_lt_iff hk.place hq.place).1 (houter k hmem)) hql.lt.le

theorem parentOf_iff (hk : outline.Heads i k header e) {a : Nat} :
    outline.ParentOf a k ↔ header.owner = some a := by
  simp [ParentOf, hk.element, hk.describes.parent]

/-- Ancestors are the elements whose block holds the header. -/
theorem ancestor_iff_encloses (h : outline.WellNested n) (hj : outline.Heads i j a d)
    (hk : outline.Heads l k b e) :
    Relation.TransGen outline.ParentOf j k ↔ Encloses outline.lines i l := by
  constructor
  · intro hjk
    induction hjk generalizing l b e with
    | single hparent =>
      obtain ⟨q, header, e', hq, hql⟩ := h.heads_owner hk.line ((parentOf_iff hk).1 hparent)
      rwa [place?_inj hj.place hq.place]
    | tail _ hparent ih =>
      obtain ⟨q, header, e', hq, hql⟩ := h.heads_owner hk.line ((parentOf_iff hk).1 hparent)
      exact (ih hq).trans hql
  · intro hil
    -- From the header upwards: the owner of a header stands on an earlier line.
    induction l using Nat.strong_induction_on generalizing k b e with
    | _ l ih =>
      obtain ⟨o, q, header, e', ho, hq, hql, hinner⟩ := h.exists_owner hj hk.line hil
      have hparent := (parentOf_iff hk).2 ho
      rcases hinner with rfl | hinner
      · exact .single hparent
      · exact .tail (ih q hql.lt hq hinner) hparent

/-- The elements around a line are those around its owner's header, and the owner. -/
theorem around_eq (h : outline.WellNested n) (hline : outline.lines[l]? = some line) {o : Nat}
    (ho : line.owner = some o) (hk : outline.Heads i o header e) :
    line.around outline.lines = header.around outline.lines ++ [o] := by
  obtain ⟨outer, haround, hsorted, houter⟩ := h.around_owner hline ho
  have hil : Encloses outline.lines i l := (h.mem_around hk hline).1 (by simp [haround])
  -- Both lists are increasing, so it is enough that they have the same members.
  rw [haround, hsorted.eq_of_mem_iff (h.offSide.sorted_around hk.line) fun k => ?_]
  rw [h.offSide.mem_around hk.line]
  constructor
  · intro hk'
    obtain ⟨p, hp, hplace⟩ := (h.offSide.mem_around hline k).1 (by simp [haround, hk'])
    exact ⟨p, hp.of_le ((place?_lt_iff hplace hk.place).1 (houter k hk')) hil.lt.le, hplace⟩
  · rintro ⟨p, hp, hplace⟩
    have hmem := (h.offSide.mem_around hline k).2 ⟨p, hp.trans hil, hplace⟩
    have hlt := place?_lt hplace hk.place hp.lt
    rw [haround, List.mem_append, List.mem_singleton] at hmem
    exact hmem.resolve_right hlt.ne

/-! ### Spans -/

/-- The span of an element in a block lies in that of the block's element. -/
theorem span_le (h : outline.WellNested n) (hj : outline.Heads i j a d)
    (hk : outline.Heads l k b e) (hil : Encloses outline.lines i l) :
    d.startLine < e.startLine ∧ e.endLine ≤ d.endLine := by
  obtain ⟨m, last, ⟨hlast, -⟩, hm, hend⟩ := hk.describes.endLine
  rw [hk.describes.startLine, hend]
  refine ⟨((h.encloses_iff_span hj hk.line).1 hil).1, h.endLine_le hj hm (.inr ?_)⟩
  rcases hlast with rfl | hlast
  · exact hil
  · exact hil.trans hlast

/-- An element outside a block begins after the end of the block's element, if it begins after
its header. -/
theorem span_lt (h : outline.WellNested n) (hj : outline.Heads i j a d)
    (hk : outline.Heads l k b e) (hil : i < l) (houtside : ¬ Encloses outline.lines i l) :
    d.endLine < e.startLine := by
  rw [h.encloses_iff_span hj hk.line, ← hk.describes.startLine] at houtside
  have hstart := (h.heads_startLine_lt_iff hj hk).2 hil
  omega

theorem span_bounds (h : outline.WellNested n) (hk : outline.Heads i k header e) :
    1 ≤ e.startLine ∧ e.startLine ≤ e.endLine ∧ e.endLine ≤ n := by
  obtain ⟨m, last, -, hm, hend⟩ := hk.describes.endLine
  have hheader := h.bounds hk.line
  have hlast := h.bounds hm
  have hspan := h.endLine_le hk hk.line (.inl rfl)
  rw [hk.describes.startLine]
  omega

end Outline.WellNested

/-- The elements of the outline of `n` lines form a well-nested forest. -/
structure Outline.Forest (outline : Outline) (n : Nat) : Prop where
  headers : List.Forall₂ (fun header e => e.startLine = header.startLine ∧ e.parent = header.owner)
    (outline.lines.toList.filter (·.isElementHeader)) outline.elements.toList
  increasing : outline.elements.toList.Pairwise fun d e => d.startLine < e.startLine
  bounds : ∀ e ∈ outline.elements, 1 ≤ e.startLine ∧ e.startLine ≤ e.endLine ∧ e.endLine ≤ n
  root : ∀ e ∈ outline.elements, e.parent = none → e.depth = 0
  child : ∀ (k a : Nat) (e : Element), outline.elements[k]? = some e → e.parent = some a →
    a < k ∧ ∃ p, outline.elements[a]? = some p ∧ e.depth = p.depth + 1
  method : ∀ e ∈ outline.elements, e.isMethod = true ↔ e.kind = .function ∧
    ∃ a p, e.parent = some a ∧ outline.elements[a]? = some p ∧ p.kind = .classDef
  laminar : ∀ d ∈ outline.elements, ∀ e ∈ outline.elements,
    d.endLine < e.startLine ∨ e.endLine < d.startLine ∨
      (d.startLine ≤ e.startLine ∧ e.endLine ≤ d.endLine) ∨
      (e.startLine ≤ d.startLine ∧ d.endLine ≤ e.endLine)
  contains : ∀ (j k : Nat) (d e : Element), outline.elements[j]? = some d →
    outline.elements[k]? = some e → j ≠ k →
    ((d.startLine ≤ e.startLine ∧ e.endLine ≤ d.endLine) ↔
      Relation.TransGen outline.ParentOf j k)

namespace Outline.WellNested

variable {outline : Outline} {n : Nat}

/-- The headers and the elements correspond in order. -/
theorem forall₂_of_heads (h : outline.WellNested n) {R : LogicalLine → Element → Prop}
    (hR : ∀ {i k header e}, outline.Heads i k header e → R header e) :
    List.Forall₂ R (outline.lines.toList.filter (·.isElementHeader)) outline.elements.toList := by
  refine List.forall₂_iff_get.2 ⟨?_, fun k hk hk' => ?_⟩
  · rw [← headersBefore_size, Array.length_toList, h.size]
  · have he : outline.elements[k]? = some (outline.elements.toList.get ⟨k, hk'⟩) := by
      rw [← Array.getElem?_toList]
      exact List.getElem?_eq_getElem hk'
    obtain ⟨i, header, hheads⟩ := h.exists_heads he
    have hheader := getElem?_filter_of_place hheads.line hheads.place
    obtain rfl : _ = header := Option.some.inj ((List.getElem?_eq_getElem hk).symm.trans hheader)
    exact hR hheads

theorem forall₂_headers (h : outline.WellNested n) :
    List.Forall₂ (fun header e => e.startLine = header.startLine ∧ e.parent = header.owner)
      (outline.lines.toList.filter (·.isElementHeader)) outline.elements.toList :=
  h.forall₂_of_heads fun hheads => ⟨hheads.describes.startLine, hheads.describes.parent⟩

theorem parent_depth (h : outline.WellNested n) {k a : Nat} {e : Element}
    (he : outline.elements[k]? = some e) (ha : e.parent = some a) :
    a < k ∧ ∃ p, outline.elements[a]? = some p ∧ e.depth = p.depth + 1 := by
  obtain ⟨l, header, hk⟩ := h.exists_heads he
  rw [hk.describes.parent] at ha
  obtain ⟨q, header', p, hq, hql⟩ := h.heads_owner hk.line ha
  refine ⟨place?_lt hq.place hk.place hql.lt, p, hq.element, ?_⟩
  rw [hk.describes.depth, hq.describes.depth, h.around_eq hk.line ha hq, List.length_append,
    List.length_singleton]

theorem contains_iff (h : outline.WellNested n) {j k : Nat} {d e : Element}
    (hd : outline.elements[j]? = some d) (he : outline.elements[k]? = some e) (hne : j ≠ k) :
    (d.startLine ≤ e.startLine ∧ e.endLine ≤ d.endLine) ↔
      Relation.TransGen outline.ParentOf j k := by
  obtain ⟨i, a, hj⟩ := h.exists_heads hd
  obtain ⟨l, b, hk⟩ := h.exists_heads he
  rw [h.ancestor_iff_encloses hj hk]
  refine ⟨fun ⟨hstart, hend⟩ => ?_, fun hil => (h.span_le hj hk hil).imp_left Nat.le_of_lt⟩
  by_contra houtside
  rcases lt_trichotomy i l with hil | rfl | hli
  · have := h.span_lt hj hk hil houtside
    have := h.span_bounds hk
    omega
  · exact hne (Option.some.inj (hj.place.symm.trans hk.place))
  · have := (h.heads_startLine_lt_iff hk hj).2 hli
    omega

/-- Of two elements the one that begins later lies in the other one, or begins after its end. -/
theorem nested_or_disjoint (h : outline.WellNested n) {i j k l : Nat} {a b : LogicalLine}
    {d e : Element} (hj : outline.Heads i j a d) (hk : outline.Heads l k b e) (hil : i ≤ l) :
    d.endLine < e.startLine ∨ d.startLine ≤ e.startLine ∧ e.endLine ≤ d.endLine := by
  rcases hil.lt_or_eq with hil | rfl
  · by_cases hinside : Encloses outline.lines i l
    · exact .inr ((h.span_le hj hk hinside).imp_left Nat.le_of_lt)
    · exact .inl (h.span_lt hj hk hil hinside)
  · obtain rfl : j = k := Option.some.inj (hj.place.symm.trans hk.place)
    obtain rfl : d = e := Option.some.inj (hj.element.symm.trans hk.element)
    exact .inr ⟨le_rfl, le_rfl⟩

theorem isMethod_iff (h : outline.WellNested n) {k : Nat} {e : Element}
    (he : outline.elements[k]? = some e) :
    e.isMethod = true ↔ e.kind = .function ∧
      ∃ a p, e.parent = some a ∧ outline.elements[a]? = some p ∧ p.kind = .classDef := by
  obtain ⟨i, header, hk⟩ := h.exists_heads he
  rw [hk.describes.isMethod, Bool.and_eq_true, Option.any_eq_true]
  simp only [Element.isFunction, Element.isClass, decide_eq_true_eq, Option.bind_eq_some_iff]
  grind

/-- Elements begin in their order. -/
theorem element_startLine_lt (h : outline.WellNested n) {j k : Nat} {d e : Element}
    (hd : outline.elements[j]? = some d) (he : outline.elements[k]? = some e) (hjk : j < k) :
    d.startLine < e.startLine := by
  obtain ⟨i, a, hj⟩ := h.exists_heads hd
  obtain ⟨l, b, hk⟩ := h.exists_heads he
  rw [h.heads_startLine_lt_iff hj hk]
  exact (place?_lt_iff hj.place hk.place).1 hjk

end Outline.WellNested

/-- The elements of an outline form a well-nested forest. -/
theorem elements_form_forest {unit : SourceUnit} {outline : Outline}
    (houtline : Outline.ofUnit unit = .ok outline) : outline.Forest unit.lines.length := by
  have h := Outline.wellNested houtline
  have hget {e : Element} (he : e ∈ outline.elements) :
      ∃ k i header, outline.Heads i k header e := by
    obtain ⟨k, hk⟩ := Array.getElem?_of_mem he
    exact ⟨k, h.exists_heads hk⟩
  refine ⟨h.forall₂_headers, ?_, fun e he => ?_, fun e he hroot => ?_, fun k a e => h.parent_depth,
    fun e he => ?_, fun d hd e he => ?_, fun j k d e => h.contains_iff⟩
  · refine List.pairwise_iff_getElem.2 fun j k hj hk hjk => h.element_startLine_lt ?_ ?_ hjk
    all_goals rw [← Array.getElem?_toList, List.getElem?_eq_getElem]
  · obtain ⟨k, i, header, hk⟩ := hget he
    exact h.span_bounds hk
  · obtain ⟨k, i, header, hk⟩ := hget he
    rw [hk.describes.parent, h.owner hk.line, List.getLast?_eq_none_iff] at hroot
    rw [hk.describes.depth, hroot, List.length_nil]
  · obtain ⟨k, i, header, hk⟩ := hget he
    exact h.isMethod_iff hk.element
  · obtain ⟨j, i, a, hj⟩ := hget hd
    obtain ⟨k, l, b, hk⟩ := hget he
    rcases le_total i l with hil | hli
    · have := h.nested_or_disjoint hj hk hil
      tauto
    · have := h.nested_or_disjoint hk hj hli
      tauto

/-- A class with a method, and a statement after it. -/
def classWithMethod : SourceUnit where
  name := "method"
  lines := ["class A:".toList, "  def f():".toList, "    x".toList, "y".toList]

theorem classWithMethod_forest :
    ∃ outline, Outline.ofUnit classWithMethod = .ok outline ∧
      outline.elements.map (·.parent) = #[none, some 0] ∧ outline.Forest 4 := by
  have hread : (Outline.ofUnit classWithMethod).map (·.elements.map (·.parent)) =
      .ok #[none, some 0] := by decide +kernel
  obtain ⟨outline, houtline, hparents⟩ := ok_map_iff.1 hread
  exact ⟨outline, houtline, hparents, elements_form_forest houtline⟩

end CodeGrade
