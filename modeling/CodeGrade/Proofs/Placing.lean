import CodeGrade.Proofs.OffSide

/-!
# The elements of an outline

Each line that defines a function or a class has its own element, and the elements stand in the
order of their headers. So the header tells the place of an element among the others, and the
headers around a line tell the elements around it; where an element stands in the tree and where it
ends follows from the block below its header.

## Main definitions

* `place?`: the place of the element that a line defines.
* `LogicalLine.around`: the elements around a line.
* `LastOf`: the last line of a block.
* `Describes`: an element is that of its header.
-/

namespace CodeGrade

/-- The number of definitions before line `i`. -/
def headersBefore (lines : Array LogicalLine) (i : Nat) : Nat :=
  (lines.toList.take i).countP (·.isElementHeader)

/-- The place of the element that line `i` defines among the elements. -/
def place? (lines : Array LogicalLine) (i : Nat) : Option Nat :=
  if lines[i]?.any (·.isElementHeader) then some (headersBefore lines i) else none

section Place

variable {lines : Array LogicalLine} {line : LogicalLine} {i j k l : Nat}

theorem place?_eq_some : place? lines i = some k ↔
    ∃ line, lines[i]? = some line ∧ line.isElementHeader = true ∧ headersBefore lines i = k := by
  unfold place?
  cases lines[i]? with
  | none => simp
  | some line => by_cases h : line.isElementHeader = true <;> simp [h]

theorem headersBefore_succ (hline : lines[i]? = some line) :
    headersBefore lines (i + 1) =
      headersBefore lines i + if line.isElementHeader then 1 else 0 := by
  rw [← Array.getElem?_toList] at hline
  rw [headersBefore, List.take_add_one, List.countP_append, hline]
  simp [headersBefore, List.countP_singleton]

theorem headersBefore_mono (h : i ≤ j) : headersBefore lines i ≤ headersBefore lines j :=
  (List.take_sublist_take_left h).countP_le

theorem lt_headersBefore (hi : place? lines i = some k) (h : i < j) :
    k < headersBefore lines j := by
  obtain ⟨line, hline, hheader, rfl⟩ := place?_eq_some.1 hi
  calc headersBefore lines i < headersBefore lines (i + 1) := by
        simp [headersBefore_succ hline, hheader]
    _ ≤ headersBefore lines j := headersBefore_mono h

theorem place?_lt_size (hi : place? lines i = some k) : k < headersBefore lines lines.size := by
  obtain ⟨line, hline, -, -⟩ := place?_eq_some.1 hi
  exact lt_headersBefore hi (Array.getElem?_eq_some_iff.1 hline).1

/-- Elements stand in the order of their headers. -/
theorem place?_lt (hi : place? lines i = some k) (hj : place? lines j = some l) (h : i < j) :
    k < l := by
  obtain ⟨-, -, -, rfl⟩ := place?_eq_some.1 hj
  exact lt_headersBefore hi h

theorem place?_lt_iff (hi : place? lines i = some k) (hj : place? lines j = some l) :
    k < l ↔ i < j := by
  refine ⟨fun h => ?_, place?_lt hi hj⟩
  rcases lt_trichotomy i j with hij | rfl | hij
  · exact hij
  · rw [hi, Option.some.injEq] at hj
    omega
  · exact absurd (place?_lt hj hi hij) (by omega)

theorem place?_inj (hi : place? lines i = some k) (hj : place? lines j = some k) : i = j := by
  have hlt := place?_lt_iff hi hj
  have hgt := place?_lt_iff hj hi
  omega

/-- Each place is that of a definition. -/
theorem exists_place (h : k < headersBefore lines j) : ∃ i, place? lines i = some k := by
  induction j with
  | zero => simp [headersBefore] at h
  | succ j ih =>
    by_cases hk : k < headersBefore lines j
    · exact ih hk
    · cases hline : lines[j]? with
      | none =>
        have hsize : lines.toList.length ≤ j := by simpa using hline
        have hsame : headersBefore lines (j + 1) = headersBefore lines j := by
          rw [headersBefore, headersBefore, List.take_of_length_le hsize,
            List.take_of_length_le (hsize.trans j.le_succ)]
        omega
      | some line =>
        rw [headersBefore_succ hline] at h
        refine ⟨j, place?_eq_some.2 ⟨line, hline, ?_, ?_⟩⟩ <;> grind

theorem headersBefore_size :
    headersBefore lines lines.size = (lines.toList.filter (·.isElementHeader)).length := by
  rw [headersBefore, ← Array.length_toList, List.take_length, List.countP_eq_length_filter]

/-- The place of a definition is its place among the definitions. -/
theorem getElem?_filter_of_place (hline : lines[i]? = some line) (hi : place? lines i = some k) :
    (lines.toList.filter (·.isElementHeader))[k]? = some line := by
  obtain ⟨line', hline', hheader, rfl⟩ := place?_eq_some.1 hi
  obtain rfl : line = line' := Option.some.inj (hline.symm.trans hline')
  obtain ⟨hlt, hget⟩ := Array.getElem?_eq_some_iff.1 hline
  rw [← Array.getElem_toList (by simpa using hlt)] at hget
  have hsplit := List.take_append_drop i lines.toList
  rw [List.drop_eq_getElem_cons (by simpa using hlt), hget] at hsplit
  rw [← hsplit, List.filter_append, List.filter_cons_of_pos hheader, headersBefore,
    List.countP_eq_length_filter, List.getElem?_append_right le_rfl, Nat.sub_self]
  rfl

theorem headersBefore_push (hi : i ≤ lines.size) :
    headersBefore (lines.push line) i = headersBefore lines i := by
  rw [headersBefore, Array.toList_push, List.take_append_of_le_length (by simpa using hi),
    headersBefore]

theorem headersBefore_push_succ : headersBefore (lines.push line) (lines.size + 1) =
    headersBefore lines lines.size + if line.isElementHeader then 1 else 0 := by
  rw [headersBefore_succ Array.getElem?_push_size, headersBefore_push le_rfl]

theorem place?_push (hi : i < lines.size) : place? (lines.push line) i = place? lines i := by
  have hget : (lines.push line)[i]? = lines[i]? := by grind
  rw [place?, place?, hget, headersBefore_push hi.le]

theorem place?_push_size : place? (lines.push line) lines.size =
    if line.isElementHeader then some (headersBefore lines lines.size) else none := by
  rw [place?, Array.getElem?_push_size, headersBefore_push le_rfl, Option.any_some]

end Place

/-- The elements around a line, outermost first. -/
def LogicalLine.around (lines : Array LogicalLine) (line : LogicalLine) : List Nat :=
  line.parents.filterMap (place? lines)

namespace OffSide

variable {lines : Array LogicalLine} {line : LogicalLine} {i : Nat}

theorem mem_around (h : OffSide lines) (hline : lines[i]? = some line) (k : Nat) :
    k ∈ line.around lines ↔ ∃ p, Encloses lines p i ∧ place? lines p = some k := by
  simp only [LogicalLine.around, List.mem_filterMap, h.mem_parents hline]

theorem sorted_around (h : OffSide lines) (hline : lines[i]? = some line) :
    (line.around lines).Pairwise (· < ·) :=
  (h.sorted hline).filterMap _ fun _ _ hlt _ hk _ hl => place?_lt hk hl hlt

theorem around_push (h : OffSide lines) (hline : lines[i]? = some line) (next : LogicalLine) :
    line.around (lines.push next) = line.around lines := by
  refine List.filterMap_congr fun p hp => place?_push ?_
  have := ((h.mem_parents hline p).1 hp).lt
  grind

end OffSide

namespace Builder

variable {b b' : Builder} {statement : Statement} {header : Option Header} {element : Option Nat}

@[simp]
theorem size_stretch (elements : Array Element) (owners : List Nat) (endLine : Nat) :
    (stretch elements owners endLine).size = elements.size := by
  induction owners generalizing elements with
  | nil => rfl
  | cons k owners ih => exact (ih _).trans Array.size_modify

@[simp]
theorem size_document (elements : Array Element) (documenting : Option Nat) (code : List Char) :
    (document elements documenting code).size = elements.size := by
  cases documenting <;> simp [document]

@[simp]
theorem size_touched (b : Builder) (statement : Statement) :
    (b.touched statement).size = b.elements.size := by
  simp [touched]

/-- The frames know the places of their elements, each line the innermost element around it, and
there are as many elements as definitions. -/
structure Placed (b : Builder) : Prop where
  nested : b.Nested
  frames : ∀ f ∈ b.frames, f.element = place? b.lines f.index
  owner : ∀ {i : Nat} {line : LogicalLine}, b.lines[i]? = some line →
    line.owner = (line.around b.lines).getLast?
  size : b.elements.size = headersBefore b.lines b.lines.size

theorem isElementHeader_nextLine (b : Builder) (statement : Statement) (header : Option Header) :
    (b.nextLine statement header).isElementHeader = header.any (·.keyword.isDefinition) := by
  simp [LogicalLine.isElementHeader, nextLine, logicalLine, Option.any_map]

namespace Placed

/-- The new line's element has the next place. -/
theorem element_eq (h : b.Placed) (added : Added b statement b' header element) :
    element = place? b'.lines b.lines.size ∧
      b'.elements.size = headersBefore b'.lines b'.lines.size := by
  rw [added.lines, place?_push_size, Array.size_push, headersBefore_push_succ,
    isElementHeader_nextLine, ← h.size]
  rcases define_eq_ok added.defined with
    ⟨hheader, helements, rfl⟩ | ⟨header, e, rfl, hheader, -, helements, rfl⟩ <;>
  simp [hheader, helements]

/-- The elements around the new line, from the stack. -/
theorem owners_enclosing (h : b.Placed) (statement : Statement) (header : Option Header) :
    owners (enclosing b.frames statement.indent) =
      ((b.nextLine statement header).around
        (b.lines.push (b.nextLine statement header))).reverse := by
  have hparents : (b.nextLine statement header).parents =
      ((enclosing b.frames statement.indent).map (·.index)).reverse := rfl
  rw [LogicalLine.around, hparents, List.filterMap_reverse, List.reverse_reverse,
    List.filterMap_map]
  refine List.filterMap_congr fun f hf => ?_
  have hf : f ∈ b.frames := (List.dropWhile_sublist _).mem hf
  rw [h.frames f hf, Function.comp_apply, place?_push (h.nested.frames.index_lt hf)]

theorem step (h : b.Placed) (added : Added b statement b' header element) : b'.Placed := by
  have hnested := h.nested.step added
  refine ⟨hnested, ?_, ?_, (h.element_eq added).2⟩
  · have hkept : ∀ f ∈ enclosing b.frames statement.indent,
        f.element = place? b'.lines f.index := by
      intro f hf
      have hf : f ∈ b.frames := (List.dropWhile_sublist _).mem hf
      rw [added.lines, h.frames f hf, place?_push (h.nested.frames.index_lt hf)]
    rw [added.frames]
    split
    · exact List.forall_mem_cons.2 ⟨(h.element_eq added).1, hkept⟩
    · exact hkept
  · intro i line hline
    rw [added.lines] at hline ⊢
    rcases line_of_push hline with ⟨hline, -⟩ | ⟨rfl, rfl⟩
    · rw [h.nested.lines.around_push hline, h.owner hline]
    · rw [List.getLast?_eq_head?_reverse, ← h.owners_enclosing]
      rfl

end Placed

theorem placed_empty : empty.Placed := by
  refine ⟨nested_empty, ?_, ?_, ?_⟩ <;> simp [empty, headersBefore]

end Builder

/-! ### What an element is -/

/-- The last line of the block below line `i`; the line itself if there is no block. -/
def LastOf (lines : Array LogicalLine) (i m : Nat) : Prop :=
  (m = i ∨ Encloses lines i m) ∧ ∀ n, m < n → n < lines.size → ¬ Encloses lines i n

/-- An element is that of its header, line `i`: it starts with it, ends with the last line of its
block, and stands inside the elements around it. -/
structure Describes (elements : Array Element) (lines : Array LogicalLine) (i : Nat)
    (line : LogicalLine) (e : Element) : Prop where
  startLine : e.startLine = line.startLine
  endLine : ∃ m last, LastOf lines i m ∧ lines[m]? = some last ∧ e.endLine = last.endLine
  parent : e.parent = line.owner
  depth : e.depth = (line.around lines).length
  isMethod : e.isMethod = (e.isFunction && (e.parent.bind (elements[·]?)).any (·.isClass))

section LastOf

variable {lines : Array LogicalLine} {line : LogicalLine} {i m : Nat}

theorem LastOf.le (h : LastOf lines i m) : i ≤ m := by
  rcases h.1 with rfl | h
  · exact le_rfl
  · exact h.lt.le

theorem LastOf.upper (h : LastOf lines i m) {l : Nat} (hl : l < lines.size)
    (hinside : l = i ∨ Encloses lines i l) : l ≤ m := by
  rcases hinside with rfl | hinside
  · exact h.le
  · by_contra hlt
    exact h.2 l (by omega) hl hinside

/-- A line added to a block is its last. -/
theorem lastOf_push_size (h : i = lines.size ∨ Encloses (lines.push line) i lines.size) :
    LastOf (lines.push line) i lines.size := by
  refine ⟨h.imp_left Eq.symm, fun n hn hsize => ?_⟩
  rw [Array.size_push] at hsize
  omega

/-- A line added outside a block leaves its last line. -/
theorem LastOf.push (h : LastOf lines i m) (hm : m < lines.size)
    (houtside : ¬ Encloses (lines.push line) i lines.size) : LastOf (lines.push line) i m := by
  refine ⟨h.1.imp_right (encloses_push hm).2, fun n hn hsize => ?_⟩
  rcases Nat.lt_succ_iff_lt_or_eq.1 (by simpa using hsize) with hsize | rfl
  · rw [encloses_push hsize]
    exact h.2 n hn hsize
  · exact houtside

end LastOf

/-- What the element of a definition takes from its header and its placement. -/
theorem Element.ofHeader_eq_ok {statement : Statement} {header : Header} {place : Placement}
    {e : Element} (h : Element.ofHeader statement header place = .ok e) :
    e.startLine = statement.startLine ∧ e.endLine = statement.endLine ∧ e.depth = place.depth ∧
      e.parent = place.parent ∧ e.isMethod = (e.isFunction && place.inClass) := by
  simp only [Element.ofHeader] at h
  grind [Element.isFunction]

namespace Builder

variable {b b' : Builder} {statement : Statement} {header : Option Header} {element : Option Nat}

theorem getElem?_stretch (elements : Array Element) (owners : List Nat) (endLine k : Nat) :
    (stretch elements owners endLine)[k]? = elements[k]?.map fun e =>
      { e with endLine := if k ∈ owners then endLine else e.endLine } := by
  induction owners generalizing elements with
  | nil => simp [stretch]
  | cons j owners ih =>
    have hcons : stretch elements (j :: owners) endLine =
      stretch (elements.modify j fun e => { e with endLine }) owners endLine := rfl
    rw [hcons, ih, Array.getElem?_modify]
    by_cases hj : k = j <;> cases elements[k]? <;> simp [hj, Ne.symm]

theorem getElem?_document (elements : Array Element) (documenting : Option Nat) (code : List Char)
    (k : Nat) :
    (document elements documenting code)[k]? = elements[k]?.map fun e =>
      { e with hasDocstring :=
          if documenting = some k then isStringStatement code else e.hasDocstring } := by
  cases documenting with
  | none => simp [document]
  | some j =>
    rw [document, Array.getElem?_modify]
    by_cases hj : j = k <;> cases elements[k]? <;> simp [hj]

/-- What a statement makes of element `k`: the end moves if the element is around the statement,
and the statement may be its docstring. -/
def afterStatement (b : Builder) (statement : Statement) (k : Nat) (e : Element) : Element :=
  { e with
    endLine := if k ∈ owners (enclosing b.frames statement.indent) then statement.endLine
      else e.endLine
    hasDocstring := if b.documenting = some k then isStringStatement statement.code
      else e.hasDocstring }

theorem getElem?_touched (b : Builder) (statement : Statement) (k : Nat) :
    (b.touched statement)[k]? = b.elements[k]?.map (b.afterStatement statement k) := by
  rw [touched, getElem?_document, getElem?_stretch, Option.map_map]
  rfl

theorem Added.getElem?_elements (added : Added b statement b' header element) {k : Nat}
    {e : Element} (he : b.elements[k]? = some e) :
    b'.elements[k]? = some (b.afterStatement statement k e) := by
  have htouched := b.getElem?_touched statement k
  rw [he, Option.map_some] at htouched
  rcases define_eq_ok added.defined with
    ⟨-, helements, -⟩ | ⟨-, new, -, -, -, helements, -⟩
  · rw [helements, htouched]
  · rw [helements]
    grind

/-- The innermost element around a line is among the elements. -/
theorem Placed.owner_lt (h : b.Placed) {i a : Nat} {line : LogicalLine}
    (hline : b.lines[i]? = some line) (ha : line.owner = some a) : a < b.elements.size := by
  rw [h.owner hline] at ha
  obtain ⟨p, -, hp⟩ := (h.nested.lines.mem_around hline a).1 (List.mem_of_getLast? ha)
  rw [h.size]
  exact place?_lt_size hp

/-- So is the innermost element around a new line. -/
theorem Placed.lt_of_mem_owners (h : b.Placed) {indent a : Nat}
    (ha : a ∈ owners (enclosing b.frames indent)) : a < b.elements.size := by
  obtain ⟨f, hf, hfa⟩ := List.mem_filterMap.1 ha
  rw [h.frames f ((List.dropWhile_sublist _).mem hf)] at hfa
  rw [h.size]
  exact place?_lt_size hfa

/-- The elements whose end moves are those around the new line. -/
theorem Placed.mem_owners (h : b.Placed) (statement : Statement) (header : Option Header)
    {i k : Nat} (hk : place? b.lines i = some k) :
    k ∈ owners (enclosing b.frames statement.indent) ↔
      Encloses (b.lines.push (b.nextLine statement header)) i b.lines.size := by
  have hplace {p : Nat} (hp : p < b.lines.size) :
      place? (b.lines.push (b.nextLine statement header)) p = place? b.lines p := place?_push hp
  rw [h.owners_enclosing statement header, List.mem_reverse,
    (h.nested.offSide_push statement header).mem_around Array.getElem?_push_size]
  constructor
  · rintro ⟨p, hp, hpk⟩
    rw [hplace hp.lt] at hpk
    rwa [place?_inj hk hpk]
  · exact fun hi => ⟨i, hi, (hplace hi.lt).trans hk⟩

/-- Each definition has its element. -/
structure Described (b : Builder) : Prop where
  placed : b.Placed
  element : ∀ {i k : Nat} {line : LogicalLine}, b.lines[i]? = some line →
    place? b.lines i = some k →
    ∃ e, b.elements[k]? = some e ∧ Describes b.elements b.lines i line e

namespace Described

/-- Whether the element around a line is a class does not change. -/
theorem isClass_owner (h : b.Placed) (added : Added b statement b' header element) {i : Nat}
    {line : LogicalLine} (hline : b.lines[i]? = some line) :
    (line.owner.bind (b'.elements[·]?)).any (·.isClass) =
      (line.owner.bind (b.elements[·]?)).any (·.isClass) := by
  cases hparent : line.owner with
  | none => rfl
  | some a =>
    have ha := Array.getElem?_eq_getElem (h.owner_lt hline hparent)
    rw [Option.bind_some, Option.bind_some, added.getElem?_elements ha, ha]
    rfl

/-- The element of a definition that was read before. -/
theorem old (h : b.Described) (added : Added b statement b' header element) {i k : Nat}
    {line : LogicalLine} (hline : b.lines[i]? = some line) (hk : place? b.lines i = some k) :
    ∃ e, b'.elements[k]? = some e ∧ Describes b'.elements b'.lines i line e := by
  obtain ⟨e, he, hdescribes⟩ := h.element hline hk
  refine ⟨_, added.getElem?_elements he, ⟨hdescribes.startLine, ?_, hdescribes.parent, ?_, ?_⟩⟩
  · obtain ⟨m, last, hlast, hm, hend⟩ := hdescribes.endLine
    have hmove := h.placed.mem_owners statement header hk
    simp only [afterStatement, added.lines]
    by_cases hinside : Encloses (b.lines.push (b.nextLine statement header)) i b.lines.size
    · rw [if_pos (hmove.2 hinside)]
      exact ⟨_, _, lastOf_push_size (.inr hinside), Array.getElem?_push_size, rfl⟩
    · rw [if_neg (mt hmove.1 hinside)]
      have hsize := (Array.getElem?_eq_some_iff.1 hm).1
      exact ⟨m, last, hlast.push hsize hinside, by grind, hend⟩
  · rw [added.lines, h.placed.nested.lines.around_push hline]
    exact hdescribes.depth
  · have hmethod := hdescribes.isMethod
    rw [hdescribes.parent, ← isClass_owner h.placed added hline, ← hdescribes.parent] at hmethod
    exact hmethod

/-- The element of a definition that was just read. -/
theorem new (h : b.Placed) (added : Added b statement b' header element) {k : Nat}
    (hk : place? b'.lines b.lines.size = some k) :
    ∃ e, b'.elements[k]? = some e ∧
      Describes b'.elements b'.lines b.lines.size (b.nextLine statement header) e := by
  rw [← (h.element_eq added).1] at hk
  rcases define_eq_ok added.defined with ⟨-, -, rfl⟩ | ⟨header, e, rfl, -, he, helements, rfl⟩
  · simp at hk
  · obtain rfl : (b.touched statement).size = k := Option.some.inj hk
    obtain ⟨hstart, hend, hdepth, hparent, hmethod⟩ := Element.ofHeader_eq_ok he
    refine ⟨e, helements ▸ Array.getElem?_push_size, ⟨hstart, ?_, hparent, ?_, ?_⟩⟩
    · rw [added.lines]
      exact ⟨_, _, lastOf_push_size (.inl rfl), Array.getElem?_push_size, hend⟩
    · rw [hdepth, added.lines, h.owners_enclosing statement header, List.length_reverse]
    · rw [hmethod, hparent, helements]
      cases howner : (owners (enclosing b.frames statement.indent)).head? with
      | none => rfl
      | some a =>
        have ha := h.lt_of_mem_owners (List.mem_of_head? howner)
        simp [Array.getElem?_push, ha.ne]

theorem step (h : b.Described) (added : Added b statement b' header element) : b'.Described := by
  refine ⟨h.placed.step added, fun {i k line} hline hk => ?_⟩
  rcases line_of_push (added.lines ▸ hline) with ⟨hline, hi⟩ | ⟨rfl, rfl⟩
  · rw [added.lines, place?_push hi] at hk
    exact h.old added hline hk
  · exact new h.placed added hk

end Described

theorem described_of_steps {statements : List Statement} (h : empty.steps statements = .ok b) :
    b.Described := by
  refine invariant h ⟨placed_empty, fun hline => ?_⟩ fun _ _ _ _ _ hb added => hb.step added
  simp [empty] at hline

end Builder

end CodeGrade
