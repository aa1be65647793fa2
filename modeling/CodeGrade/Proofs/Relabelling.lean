import CodeGrade.Proofs.Faults

/-!
# Relabelling statements

An outline is built without a look at the numbers of lines, and indentations are only compared with
one another. Statements whose lines are numbered anew, and whose indentations are replaced by others
in the same order, are refused and nested as before. This is said of statements behind others, whose
outline stays in front, so that the places of statements and elements may move, too.

## Main definitions

* `Relabelling`: what stands for the lines, indentations and places that there were.
* `Builder.Within`: the indentations that an outline may still compare are among the given ones.
* `Builder.behind`: an outline that is relabelled and built behind another one.
-/

namespace CodeGrade

/-- What stands for the lines, indentations and places that there were. The indentations among
`levels` keep their order; the places of statements and of elements are moved. -/
structure Relabelling where
  line : Nat → Nat
  indent : Nat → Nat
  levels : Set Nat
  strictMono : StrictMonoOn indent levels
  statements : Nat
  elements : Nat

/-- Lines are numbered anew and places are moved, and all indentations stay as they were. -/
def Relabelling.ofLine (line : Nat → Nat) (statements elements : Nat) : Relabelling where
  line
  indent := id
  levels := Set.univ
  strictMono := strictMono_id.strictMonoOn _
  statements
  elements

section Relabel

variable (r : Relabelling)

def Fault.relabel (fault : Fault) : Fault := { fault with line := r.line fault.line }

def Statement.relabel (statement : Statement) : Statement :=
  { statement with
    startLine := r.line statement.startLine
    endLine := r.line statement.endLine
    indent := r.indent statement.indent }

/-- A relabelled element. An element that is in no other stays so. -/
def Element.relabel (e : Element) : Element :=
  { e with
    startLine := r.line e.startLine
    endLine := r.line e.endLine
    parent := e.parent.map (· + r.elements) }

/-- A relabelled logical line. -/
def LogicalLine.relabel (line : LogicalLine) : LogicalLine :=
  { line with
    index := line.index + r.statements
    startLine := r.line line.startLine
    endLine := r.line line.endLine
    indent := r.indent line.indent
    parents := line.parents.map (· + r.statements)
    owner := line.owner.map (· + r.elements) }

def Frame.relabel (frame : Frame) : Frame where
  indent := r.indent frame.indent
  index := frame.index + r.statements
  element := frame.element.map (· + r.elements)

end Relabel

variable {r : Relabelling}

/-! ### Faults -/

theorem Header.read_relabel (r : Relabelling) (statement : Statement) :
    Header.read (statement.relabel r) = (Header.read statement).mapError (·.relabel r) := by
  simp only [Header.read, Statement.relabel]
  cases Keyword.read? statement.code with
  | none => rfl
  | some keyword =>
    cases headerColon? statement.code with
    | some colon => rfl
    | none =>
      cases hdefinition : keyword.isDefinition with
      | true => simp [hdefinition, Except.mapError, Fault.relabel]
      | false => simp [hdefinition, Except.mapError]

namespace Statement

theorem fault?_relabel (r : Relabelling) (statement : Statement) :
    (statement.relabel r).fault? = statement.fault?.map (·.relabel r) := by
  rw [fault?, fault?, Header.read_relabel]
  cases Header.read statement with
  | error fault => rfl
  | ok header =>
    simp only [Except.mapError, definitionFault?]
    cases header.filter (·.keyword.isDefinition) with
    | none => rfl
    | some definition =>
      have hcode : (statement.relabel r).code = statement.code := rfl
      rw [Option.bind_some, Option.bind_some, hcode]
      cases definition.signature statement.code <;> rfl

theorem opensBlock_relabel (r : Relabelling) (statement : Statement) :
    (statement.relabel r).opensBlock = statement.opensBlock := by
  rw [opensBlock, opensBlock, Header.read_relabel]
  cases Header.read statement <;> rfl

theorem blockFault?_relabel {statement : Statement} (hindent : statement.indent ∈ r.levels)
    {next : Option Statement} (hnext : ∀ following ∈ next, following.indent ∈ r.levels) :
    (statement.relabel r).blockFault? (next.map (·.relabel r)) =
      (statement.blockFault? next).map (·.relabel r) := by
  have hany : (next.map (·.relabel r)).any ((statement.relabel r).indent < ·.indent) =
      next.any (statement.indent < ·.indent) := by
    cases next with
    | none => rfl
    | some following =>
      have hlt := r.strictMono.lt_iff_lt hindent (hnext following rfl)
      simp [Statement.relabel, hlt]
  rw [blockFault?, blockFault?, opensBlock_relabel, hany]
  split <;> rfl

end Statement

/-- Statements are refused as before. -/
theorem firstFault?_relabel {statements : List Statement}
    (hlevels : ∀ statement ∈ statements, statement.indent ∈ r.levels) :
    firstFault? (statements.map (·.relabel r)) = (firstFault? statements).map (·.relabel r) := by
  induction statements with
  | nil => rfl
  | cons statement rest ih =>
    obtain ⟨hindent, hrest⟩ := List.forall_mem_cons.1 hlevels
    have hnext : ∀ following ∈ rest.head?, following.indent ∈ r.levels :=
      fun following hmem => hrest following (List.mem_of_mem_head? hmem)
    rw [List.map_cons, firstFault?, firstFault?, Statement.faultBefore?, Statement.faultBefore?,
      List.head?_map, Statement.fault?_relabel, Statement.blockFault?_relabel hindent hnext,
      ih hrest, Option.map_or, Option.map_or]

/-! ### Elements -/

/-- A header defines the same element after the relabelling, if its place is moved. -/
theorem Element.ofHeader_relabel {statement : Statement} {header : Header} {place : Placement}
    {element : Element} (h : Element.ofHeader statement header place = .ok element) :
    Element.ofHeader (statement.relabel r) header
        { place with parent := place.parent.map (· + r.elements) } = .ok (element.relabel r) := by
  have hcode : (statement.relabel r).code = statement.code := rfl
  rw [Element.ofHeader_eq] at h ⊢
  rw [hcode]
  cases hsignature : header.signature statement.code with
  | error cause => simp [hsignature] at h
  | ok signature =>
    rw [hsignature] at h
    rw [← Except.ok.inj h]
    rfl

namespace Builder

theorem owners_relabel (r : Relabelling) (frames : List Frame) :
    owners (frames.map (·.relabel r)) = (owners frames).map (· + r.elements) := by
  simp [owners, List.filterMap_map, List.map_filterMap, Frame.relabel]

section Front

variable {front : Array Element} (hfront : r.elements = front.size)

include hfront

/-- Changing a relabelled element is relabelling the changed one. -/
theorem modify_relabel (elements : Array Element) (i : Nat) {f g : Element → Element}
    (h : ∀ e, g (e.relabel r) = (f e).relabel r) :
    (front ++ elements.map (·.relabel r)).modify (i + r.elements) g =
      front ++ (elements.modify i f).map (·.relabel r) := by
  refine Array.ext_getElem? fun j => ?_
  simp only [Array.getElem?_modify, Array.getElem?_append, Array.getElem?_map, hfront]
  by_cases hj : j < front.size
  -- The elements in front are out of reach of moved places.
  · have hne : i + front.size ≠ j := by omega
    simp [hj, hne]
  · by_cases hij : i = j - front.size
    · obtain rfl : j = i + front.size := by omega
      simp [Function.comp_def, h]
    · have hne : i + front.size ≠ j := by omega
      simp [hj, hij, hne]

theorem stretch_relabel (elements : Array Element) (owners : List Nat) (endLine : Nat) :
    stretch (front ++ elements.map (·.relabel r)) (owners.map (· + r.elements))
        (r.line endLine) =
      front ++ (stretch elements owners endLine).map (·.relabel r) := by
  induction owners generalizing elements with
  | nil => rfl
  | cons i rest ih =>
    have hmodify := modify_relabel hfront elements i
      (f := fun e => { e with endLine }) (g := fun e => { e with endLine := r.line endLine })
      fun e => rfl
    simp only [stretch, List.map_cons, List.foldl_cons, hmodify] at ih ⊢
    exact ih _

theorem document_relabel (elements : Array Element) (documenting : Option Nat)
    (code : List Char) :
    document (front ++ elements.map (·.relabel r)) (documenting.map (· + r.elements)) code =
      front ++ (document elements documenting code).map (·.relabel r) := by
  cases documenting with
  | none => rfl
  | some i => exact modify_relabel hfront elements i fun e => rfl

theorem isClass_relabel (elements : Array Element) (owner : Option Nat) :
    ((owner.map (· + r.elements)).bind ((front ++ elements.map (·.relabel r))[·]?)).any
        (·.isClass) =
      (owner.bind (elements[·]?)).any (·.isClass) := by
  cases owner with
  | none => rfl
  | some i =>
    simp only [Option.map_some, Option.bind_some, hfront]
    rw [Array.getElem?_append_right (by omega), Nat.add_sub_cancel, Array.getElem?_map]
    cases elements[i]? <;> rfl

theorem define_relabel {elements elements' : Array Element} {frames : List Frame}
    {decorators : List (List Char)} {statement : Statement} {header : Option Header}
    {element : Option Nat}
    (h : define elements frames decorators statement header = .ok (elements', element)) :
    define (front ++ elements.map (·.relabel r)) (frames.map (·.relabel r)) decorators
        (statement.relabel r) header =
      .ok (front ++ elements'.map (·.relabel r), element.map (· + r.elements)) := by
  unfold define at h ⊢
  cases hheader : header.filter (·.keyword.isDefinition) with
  | none =>
    simp only [hheader, Except.ok.injEq, Prod.mk.injEq] at h
    obtain ⟨rfl, rfl⟩ := h
    rfl
  | some definition =>
    simp only [hheader] at h ⊢
    obtain ⟨e, he, hpush⟩ := ok_bind_iff.1 h
    simp only [Except.ok.injEq, Prod.mk.injEq] at hpush
    obtain ⟨rfl, rfl⟩ := hpush
    have helement := Element.ofHeader_relabel (r := r) he
    simp only at helement
    rw [owners_relabel, List.length_map, List.head?_map, isClass_relabel hfront, helement]
    simp [bind, Except.bind, hfront, Nat.add_comm]

end Front

/-! ### Outlines -/

/-- The indentations that are compared with those of later statements are among the given ones. -/
structure Within (b : Builder) (levels : Set Nat) : Prop where
  frames : ∀ frame ∈ b.frames, frame.indent ∈ levels
  awaiting : ∀ header ∈ b.awaiting, header.indent ∈ levels

theorem within_empty (levels : Set Nat) : empty.Within levels :=
  ⟨by simp [empty], by simp [empty]⟩

theorem Within.step {b b' : Builder} {levels : Set Nat} (h : b.Within levels)
    {statement : Statement} (hindent : statement.indent ∈ levels) {header : Option Header}
    {element : Option Nat} (added : Added b statement b' header element) : b'.Within levels := by
  have henclosing : ∀ frame ∈ enclosing b.frames statement.indent, frame.indent ∈ levels :=
    fun frame hframe => h.frames frame (List.dropWhile_subset _ hframe)
  constructor
  · rw [added.frames]
    split
    · exact List.forall_mem_cons.2 ⟨hindent, henclosing⟩
    · exact henclosing
  · rw [added.awaiting]
    split
    · intro awaited hawaited
      rw [← Option.some.inj hawaited]
      exact hindent
    · simp

theorem enclosing_relabel {frames : List Frame}
    (hframes : ∀ frame ∈ frames, frame.indent ∈ r.levels) {indent : Nat}
    (hindent : indent ∈ r.levels) :
    enclosing (frames.map (·.relabel r)) (r.indent indent) =
      (enclosing frames indent).map (·.relabel r) := by
  induction frames with
  | nil => rfl
  | cons frame rest ih =>
    obtain ⟨hframe, hrest⟩ := List.forall_mem_cons.1 hframes
    have hle := r.strictMono.le_iff_le hindent hframe
    have hrelabel : (frame.relabel r).indent = r.indent frame.indent := rfl
    simp only [enclosing, List.map_cons, List.dropWhile_cons, hrelabel, hle, decide_eq_true_eq]
    split
    · exact ih hrest
    · rfl

theorem missingBlock?_relabel {awaiting : Option LogicalLine}
    (hawaiting : ∀ header ∈ awaiting, header.indent ∈ r.levels) {indent : Nat}
    (hindent : indent ∈ r.levels) (h : missingBlock? awaiting (some indent) = none) :
    missingBlock? (awaiting.map (·.relabel r)) (some (r.indent indent)) = none := by
  cases awaiting with
  | none => rfl
  | some header =>
    have hlt : header.indent < indent := by simpa [missingBlock?] using h
    have hlt' := r.strictMono (hawaiting header rfl) hindent hlt
    simp [missingBlock?, LogicalLine.relabel, hlt']

theorem logicalLine_relabel (r : Relabelling) (index : Nat) (frames : List Frame)
    (statement : Statement) (header : Option Header) :
    logicalLine (index + r.statements) (frames.map (·.relabel r)) (statement.relabel r) header =
      (logicalLine index frames statement header).relabel r := by
  simp only [logicalLine, owners_relabel, List.head?_map, List.map_map, List.map_reverse,
    LogicalLine.relabel, Statement.relabel]
  rfl

/-- The outline `b`, relabelled and built behind the outline `front`. -/
def behind (b front : Builder) (r : Relabelling) : Builder where
  elements := front.elements ++ b.elements.map (·.relabel r)
  lines := front.lines ++ b.lines.map (·.relabel r)
  frames := b.frames.map (·.relabel r)
  decorators := b.decorators
  awaiting := b.awaiting.map (·.relabel r)
  documenting := b.documenting.map (· + r.elements)

end Builder

/-- The relabelling moves places behind those of the outline. -/
structure Relabelling.Follows (r : Relabelling) (front : Builder) : Prop where
  statements : r.statements = front.lines.size
  elements : r.elements = front.elements.size

namespace Builder

section Behind

variable {b b' front : Builder} {statement : Statement}

theorem enclosing_behind (hb : b.Within r.levels) (hindent : statement.indent ∈ r.levels) :
    enclosing (b.behind front r).frames (statement.relabel r).indent =
      (enclosing b.frames statement.indent).map (·.relabel r) :=
  enclosing_relabel hb.frames hindent

theorem touched_behind (hfront : r.Follows front) (hb : b.Within r.levels)
    (hindent : statement.indent ∈ r.levels) :
    (b.behind front r).touched (statement.relabel r) =
      front.elements ++ (b.touched statement).map (·.relabel r) := by
  rw [touched, enclosing_behind hb hindent, owners_relabel]
  have hstretch := stretch_relabel hfront.elements b.elements
    (owners (enclosing b.frames statement.indent)) statement.endLine
  have hdocument := document_relabel hfront.elements
    (stretch b.elements (owners (enclosing b.frames statement.indent)) statement.endLine)
    b.documenting statement.code
  rw [← hstretch] at hdocument
  exact hdocument

theorem nextLine_behind (hfront : r.Follows front) (hb : b.Within r.levels)
    (hindent : statement.indent ∈ r.levels) (header : Option Header) :
    (b.behind front r).nextLine (statement.relabel r) header =
      (b.nextLine statement header).relabel r := by
  have hsize : (b.behind front r).lines.size = b.lines.size + r.statements := by
    simp [behind, hfront.statements, Nat.add_comm]
  rw [nextLine, nextLine, enclosing_behind hb hindent, hsize]
  exact logicalLine_relabel r _ _ statement header

/-- A statement adds the same after the relabelling. -/
theorem Added.behind {header : Option Header} {element : Option Nat}
    (added : Added b statement b' header element) (hfront : r.Follows front)
    (hb : b.Within r.levels) (hindent : statement.indent ∈ r.levels) :
    Added (b.behind front r) (statement.relabel r) (b'.behind front r) header
      (element.map (· + r.elements)) := by
  have hline := nextLine_behind hfront hb hindent header
  have hopens : ((b.nextLine statement header).relabel r).opensBlock =
      (b.nextLine statement header).opensBlock := rfl
  constructor
  case awaited => exact missingBlock?_relabel hb.awaiting hindent added.awaited
  case read =>
    rw [Header.read_relabel, added.read]
    rfl
  case defined =>
    rw [touched_behind hfront hb hindent, enclosing_behind hb hindent]
    exact define_relabel hfront.elements added.defined
  case lines =>
    rw [hline]
    simp [Builder.behind, added.lines]
  case frames =>
    rw [hline, hopens, enclosing_behind hb hindent, Builder.behind, added.frames]
    split
    · simp [Frame.relabel, Statement.relabel, Builder.behind, hfront.statements, Nat.add_comm]
    · rfl
  case decorators => exact added.decorators
  case awaiting =>
    rw [hline, hopens, Builder.behind, added.awaiting]
    split <;> rfl
  case documenting =>
    rw [hline, hopens, Builder.behind, added.documenting]
    split <;> rfl

/-- Statements that are accepted are accepted after the relabelling and add the same. -/
theorem steps_behind {statements : List Statement} (h : b.steps statements = .ok b')
    (hfront : r.Follows front) (hb : b.Within r.levels)
    (hlevels : ∀ statement ∈ statements, statement.indent ∈ r.levels) :
    (b.behind front r).steps (statements.map (·.relabel r)) = .ok (b'.behind front r) := by
  induction statements generalizing b with
  | nil =>
    obtain ⟨hawaiting, -⟩ := steps_append h
    rw [steps] at h
    split at h
    · cases h
    · obtain rfl := Except.ok.inj h
      have hnone : (b.behind front r).awaiting = none := by simp [behind, hawaiting]
      rw [List.map_nil, steps, hnone]
      rfl
  | cons statement rest ih =>
    obtain ⟨hindent, hrest⟩ := List.forall_mem_cons.1 hlevels
    rw [steps] at h
    obtain ⟨b₁, hstep, h⟩ := ok_bind_iff.1 h
    obtain ⟨header, element, added⟩ := step_eq_ok hstep
    -- What is still compared later comes from this statement or was there before.
    rw [List.map_cons, steps, (added.behind hfront hb hindent).step_eq]
    exact ih h (hb.step hindent added) hrest

/-- Accepted statements with nothing in front of them are accepted after the relabelling. -/
theorem steps_relabel {statements : List Statement} (h : empty.steps statements = .ok b)
    (hfront : r.Follows empty)
    (hlevels : ∀ statement ∈ statements, statement.indent ∈ r.levels) :
    empty.steps (statements.map (·.relabel r)) = .ok (b.behind empty r) := by
  have hempty : empty.behind empty r = empty := by simp [behind, empty]
  have hsteps := steps_behind h hfront (within_empty _) hlevels
  rwa [hempty] at hsteps

end Behind

end Builder

end CodeGrade
