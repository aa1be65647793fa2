import CodeGrade.Proofs.Faults
import CodeGrade.Proofs.Forest

/-!
# Statements that are nested alike

Where a statement stands among the others depends on how far it is indented, on the keyword of its
header and on whether a block starts below it. Statements that agree in these are accepted together
and nested alike, whatever else their code is. The signatures of the elements are those of the
definitions, in their order.

## Main definitions

* `Statement.signature?`: the signature of what a statement defines.
* `Statement.Alike`: statements that are nested alike.
* `LogicalLine.bare`: the place of a line in its outline, without its code and its lines.
* `Builder.Alike`: outlines in the making that have the same places.
* `Element.declaration`: what an element declares, and on which lines.
-/

namespace CodeGrade

/-- The keyword of a statement that is a header. -/
def Statement.keyword? (statement : Statement) : Option Keyword :=
  match Header.read statement with
  | .ok header => header.map (·.keyword)
  | .error _ => none

/-- The signature of what a statement defines. -/
def Statement.signature? (statement : Statement) : Option Signature :=
  match Header.read statement with
  | .ok header =>
    (header.filter (·.keyword.isDefinition)).bind fun header =>
      (header.signature statement.code).toOption
  | .error _ => none

section Definition

variable {statement : Statement} {header : Header}

theorem Statement.signature?_of_read (hread : Header.read statement = .ok (some header))
    (hkeyword : header.keyword.isDefinition = true) {signature : Signature}
    (h : header.signature statement.code = .ok signature) :
    statement.fault? = none ∧ statement.signature? = some signature := by
  constructor
  · simp [fault?, hread, definitionFault?, Option.filter, hkeyword, h]
  · simp [signature?, hread, Option.filter, hkeyword, h, Except.toOption]

theorem Statement.fault?_of_read (hread : Header.read statement = .ok (some header))
    (hkeyword : header.keyword.isDefinition = true) {cause : Fault.Cause}
    (h : header.signature statement.code = .error cause) :
    statement.fault? = some ⟨statement.startLine, cause⟩ := by
  simp [fault?, hread, definitionFault?, Option.filter, hkeyword, h]

end Definition

/-- The signature of an element. -/
def Element.signature (e : Element) : Signature := ⟨e.name, e.kind, e.hasTypeHints, e.params⟩

/-- The line without its code and its lines in the text. -/
def LogicalLine.bare (line : LogicalLine) : LogicalLine :=
  { line with startLine := 0, endLine := 0, code := [] }

/-- A statement can take the place of another one: it is no fault if that one is none, and it is
nested alike. -/
structure Statement.Alike (statement other : Statement) : Prop where
  indent : other.indent = statement.indent
  keyword : other.keyword? = statement.keyword?
  opensBlock : other.opensBlock = statement.opensBlock
  fault : statement.fault? = none → other.fault? = none

theorem Statement.Alike.refl (statement : Statement) : statement.Alike statement :=
  ⟨rfl, rfl, rfl, id⟩

/-! ### Acceptance -/

theorem blockFault?_alike {statement other : Statement} {next next' : Option Statement}
    (h : statement.Alike other) (hnext : next'.map (·.indent) = next.map (·.indent))
    (hfault : statement.blockFault? next = none) : other.blockFault? next' = none := by
  have hany : next'.any (statement.indent < ·.indent) = next.any (statement.indent < ·.indent) := by
    simpa only [Option.any_map, Function.comp_def] using
      congrArg (Option.any (statement.indent < ·)) hnext
  rw [Statement.blockFault?] at hfault ⊢
  rw [h.opensBlock, h.indent, hany]
  split
  · simp_all
  · rfl

/-- Statements are accepted if those are accepted whose places they take. -/
theorem firstFault?_alike {statements others : List Statement}
    (h : List.Forall₂ Statement.Alike statements others) (hfault : firstFault? statements = none) :
    firstFault? others = none := by
  induction h with
  | nil => rfl
  | @cons statement other rest rest' hfirst hrest ih =>
    have hnext : rest'.head?.map (·.indent) = rest.head?.map (·.indent) := by
      cases hrest with
      | nil => rfl
      | cons hnext _ => exact congrArg some hnext.indent
    rw [firstFault?, Statement.faultBefore?, Option.or_eq_none_iff, Option.or_eq_none_iff]
      at hfault ⊢
    exact ⟨⟨hfirst.fault hfault.1.1, blockFault?_alike hfirst hnext hfault.1.2⟩, ih hfault.2⟩

theorem fault?_of_mem {statements : List Statement} (h : firstFault? statements = none)
    {statement : Statement} (hs : statement ∈ statements) : statement.fault? = none := by
  induction statements with
  | nil => cases hs
  | cons first rest ih =>
    rw [firstFault?, Statement.faultBefore?, Option.or_eq_none_iff, Option.or_eq_none_iff] at h
    rcases List.mem_cons.1 hs with rfl | hs
    · exact h.1.1
    · exact ih h.2 hs

theorem forall₂_alike_append {before after : List Statement} {statement other : Statement}
    (h : statement.Alike other) :
    List.Forall₂ Statement.Alike (before ++ statement :: after) (before ++ other :: after) :=
  List.rel_append (List.forall₂_same.2 fun s _ => .refl s)
    (.cons h (List.forall₂_same.2 fun s _ => .refl s))

/-- Where a statement takes the place of an accepted one, its own fault is the first. -/
theorem firstFault?_of_fault {before after : List Statement} {statement other : Statement}
    (h : firstFault? (before ++ statement :: after) = none)
    (hindent : other.indent = statement.indent) {fault : Fault}
    (hfault : other.fault? = some fault) :
    firstFault? (before ++ other :: after) = some fault := by
  induction before with
  | nil => simp [firstFault?, Statement.faultBefore?, hfault]
  | cons first before ih =>
    have hnext : (before ++ other :: after).head?.map (·.indent) =
        (before ++ statement :: after).head?.map (·.indent) := by
      cases before <;> simp [hindent]
    rw [List.cons_append, firstFault?, Statement.faultBefore?, Option.or_eq_none_iff,
      Option.or_eq_none_iff] at h
    rw [List.cons_append, firstFault?, Statement.faultBefore?, h.1.1,
      blockFault?_alike (.refl first) hnext h.1.2, ih h.2]
    rfl

namespace Builder

theorem exists_steps_iff {statements : List Statement} :
    (∃ b, empty.steps statements = .ok b) ↔ firstFault? statements = none := by
  have herror := @steps_eq_error empty statements
  have hmissing : missingBlock? empty.awaiting (statements.head?.map (·.indent)) = none := rfl
  simp only [hmissing, Option.none_or] at herror
  cases hsteps : empty.steps statements with
  | error fault => simp [herror.1 hsteps]
  | ok b =>
    rw [Option.eq_none_iff_forall_ne_some]
    refine ⟨fun _ fault hfault => ?_, fun _ => ⟨b, rfl⟩⟩
    rw [herror.2 hfault] at hsteps
    cases hsteps

/-! ### Nesting -/

section Step

variable {b b₁ other other₁ : Builder} {statement statement' : Statement}
  {header header' : Option Header} {element element' : Option Nat}

theorem Added.keyword?_eq (added : Added b statement b₁ header element) :
    statement.keyword? = header.map (·.keyword) := by
  rw [Statement.keyword?, added.read]

theorem Added.opensBlock_eq (added : Added b statement b₁ header element) :
    statement.opensBlock = header.any (·.inlineBody.isEmpty) := by
  rw [Statement.opensBlock, added.read]

/-- A definition adds one element, at the next place. -/
theorem Added.element_eq (added : Added b statement b₁ header element) :
    element = (if statement.keyword?.any Keyword.isDefinition then some b.elements.size else none) ∧
      b₁.elements.size =
        b.elements.size + if statement.keyword?.any Keyword.isDefinition then 1 else 0 := by
  rw [added.keyword?_eq, Option.any_map]
  rcases define_eq_ok added.defined with
    ⟨hheader, helements, rfl⟩ | ⟨own, e, rfl, hheader, -, helements, rfl⟩
  · simpa [helements] using hheader
  · simp [hheader, helements]

/-- The outlines have the same places, the places of open blocks included. -/
structure Alike (b other : Builder) : Prop where
  size : other.elements.size = b.elements.size
  lines : other.lines.map LogicalLine.bare = b.lines.map LogicalLine.bare
  frames : other.frames = b.frames

theorem Alike.refl (b : Builder) : b.Alike b := ⟨rfl, rfl, rfl⟩

theorem Alike.step (h : b.Alike other) (hstatement : statement.Alike statement')
    (added : Added b statement b₁ header element)
    (added' : Added other statement' other₁ header' element') : b₁.Alike other₁ := by
  have hsize : other.lines.size = b.lines.size := by simpa using congrArg Array.size h.lines
  have henclosing : enclosing other.frames statement'.indent =
      enclosing b.frames statement.indent := by
    rw [h.frames, hstatement.indent]
  have hopens : header'.any (·.inlineBody.isEmpty) = header.any (·.inlineBody.isEmpty) := by
    rw [← added.opensBlock_eq, ← added'.opensBlock_eq, hstatement.opensBlock]
  have hkeyword : header'.map (·.keyword) = header.map (·.keyword) := by
    rw [← added.keyword?_eq, ← added'.keyword?_eq, hstatement.keyword]
  have hline : (other.nextLine statement' header').bare = (b.nextLine statement header).bare := by
    simp only [nextLine, logicalLine, LogicalLine.bare, hsize, h.frames, hopens, hkeyword,
      hstatement.indent]
  have hblock : (other.nextLine statement' header').opensBlock =
      (b.nextLine statement header).opensBlock := hopens
  obtain ⟨helement, helements⟩ := added.element_eq
  obtain ⟨helement', helements'⟩ := added'.element_eq
  refine ⟨?_, ?_, ?_⟩
  · rw [helements, helements', h.size, hstatement.keyword]
  · rw [added.lines, added'.lines, Array.map_push, Array.map_push, h.lines, hline]
  · rw [added.frames, added'.frames, hblock, henclosing, hsize, hstatement.indent, helement,
      helement', h.size, hstatement.keyword]

theorem Alike.steps {statements others : List Statement}
    (hstatements : List.Forall₂ Statement.Alike statements others) (h : b.Alike other)
    (hsteps : b.steps statements = .ok b₁) (hsteps' : other.steps others = .ok other₁) :
    b₁.Alike other₁ := by
  induction hstatements generalizing b other with
  | nil =>
    rw [Builder.steps] at hsteps hsteps'
    split at hsteps
    · cases hsteps
    · split at hsteps'
      · cases hsteps'
      · obtain rfl := Except.ok.inj hsteps
        obtain rfl := Except.ok.inj hsteps'
        exact h
  | cons hstatement _ ih =>
    rw [Builder.steps] at hsteps hsteps'
    obtain ⟨b₂, hstep, hsteps⟩ := ok_bind_iff.1 hsteps
    obtain ⟨other₂, hstep', hsteps'⟩ := ok_bind_iff.1 hsteps'
    obtain ⟨header, element, added⟩ := step_eq_ok hstep
    obtain ⟨header', element', added'⟩ := step_eq_ok hstep'
    exact ih (h.step hstatement added added') hsteps hsteps'

end Step

/-! ### Signatures -/

theorem Added.signature?_eq {b b' : Builder} {statement : Statement} {header : Option Header}
    {element : Option Nat} (added : Added b statement b' header element) :
    b'.elements = b.touched statement ∧ statement.signature? = none ∨
      ∃ e : Element, b'.elements = (b.touched statement).push e ∧
        e.startLine = statement.startLine ∧ statement.signature? = some e.signature := by
  rw [Statement.signature?, added.read]
  rcases define_eq_ok added.defined with
    ⟨hnone, helements, -⟩ | ⟨own, e, rfl, hown, he, helements, -⟩
  · refine .inl ⟨helements, ?_⟩
    cases header with
    | none => rfl
    | some own =>
      have hown : own.keyword.isDefinition = false := by simpa using hnone
      simp [Option.filter, hown]
  · refine .inr ⟨e, helements, (Element.ofHeader_eq_ok he).1, ?_⟩
    rw [Element.ofHeader_eq] at he
    cases hread : own.signature statement.code with
    | error cause => simp [hread] at he
    | ok signature =>
      rw [hread] at he
      obtain rfl := Except.ok.inj he
      simp [Option.filter, hown, hread, Except.toOption, Element.signature, Signature.element]

/-- The elements start and have the signatures as the definitions do. -/
theorem signatures_of_steps {statements : List Statement} {b : Builder}
    (h : empty.steps statements = .ok b) :
    b.elements.toList.map (fun e => (e.startLine, e.signature)) =
      statements.filterMap fun statement =>
        statement.signature?.map fun signature => (statement.startLine, signature) := by
  refine steps_induction (P := fun read b => b.elements.toList.map _ = read.filterMap _) [] h rfl ?_
  intro read b statement b' header element hread added
  have htouched : (b.touched statement).toList.map (fun e => (e.startLine, e.signature)) =
      b.elements.toList.map fun e => (e.startLine, e.signature) := by
    refine List.ext_getElem? fun k => ?_
    simp only [List.getElem?_map, Array.getElem?_toList, getElem?_touched, Option.map_map]
    rfl
  rw [List.filterMap_append, ← hread, ← htouched]
  rcases added.signature?_eq with ⟨helements, hnone⟩ | ⟨e, helements, hstart, hsignature⟩
  · simp [helements, hnone]
  · simp [helements, hsignature, hstart]

end Builder

/-! ### Units -/

namespace Outline

variable {unit other : SourceUnit} {masked masked' : List MaskedLine} {outline : Outline}

theorem firstFault?_eq_none (hmask : mask unit = .ok masked)
    (houtline : Outline.ofUnit unit = .ok outline) : firstFault? (joinLines masked) = none := by
  obtain ⟨masked', b, hmask', hsteps, -⟩ := Outline.ofUnit_eq_ok.1 houtline
  obtain rfl := Except.ok.inj (hmask'.symm.trans hmask)
  exact Builder.exists_steps_iff.1 ⟨b, hsteps⟩

/-- A unit whose statements can take the places of accepted ones is accepted, and its lines have
the same places. -/
theorem ofUnit_alike (hmask : mask unit = .ok masked) (houtline : Outline.ofUnit unit = .ok outline)
    (hmask' : mask other = .ok masked')
    (h : List.Forall₂ Statement.Alike (joinLines masked) (joinLines masked')) :
    ∃ outline', Outline.ofUnit other = .ok outline' ∧
      outline'.lines.map LogicalLine.bare = outline.lines.map LogicalLine.bare := by
  have hnone := firstFault?_alike h (firstFault?_eq_none hmask houtline)
  obtain ⟨b', hsteps'⟩ := Builder.exists_steps_iff.2 hnone
  obtain ⟨masked₁, b, hmask₁, hsteps, rfl⟩ := Outline.ofUnit_eq_ok.1 houtline
  obtain rfl := Except.ok.inj (hmask₁.symm.trans hmask)
  exact ⟨_, Outline.ofUnit_eq_ok.2 ⟨masked', b', hmask', hsteps', rfl⟩,
    ((Builder.Alike.refl .empty).steps h hsteps hsteps').lines⟩

theorem signatures_eq (hmask : mask unit = .ok masked)
    (houtline : Outline.ofUnit unit = .ok outline) :
    outline.elements.toList.map (fun e => (e.startLine, e.signature)) =
      (joinLines masked).filterMap fun statement =>
        statement.signature?.map fun signature => (statement.startLine, signature) := by
  obtain ⟨masked₁, b, hmask₁, hsteps, rfl⟩ := Outline.ofUnit_eq_ok.1 houtline
  obtain rfl := Except.ok.inj (hmask₁.symm.trans hmask)
  exact Builder.signatures_of_steps hsteps

theorem exists_element (hmask : mask unit = .ok masked)
    (houtline : Outline.ofUnit unit = .ok outline) {statement : Statement}
    (hstatement : statement ∈ joinLines masked) {signature : Signature}
    (hsignature : statement.signature? = some signature) :
    ∃ e ∈ outline.elements, e.startLine = statement.startLine ∧ e.signature = signature := by
  have hmem : (statement.startLine, signature) ∈
      outline.elements.toList.map fun e => (e.startLine, e.signature) := by
    rw [signatures_eq hmask houtline, List.mem_filterMap]
    exact ⟨statement, hstatement, by rw [hsignature, Option.map_some]⟩
  obtain ⟨e, he, heq⟩ := List.mem_map.1 hmem
  exact ⟨e, Array.mem_toList_iff.1 he, congrArg Prod.fst heq, congrArg Prod.snd heq⟩

/-- Every element has the signature that the header of some statement gives it. -/
theorem exists_header (hmask : mask unit = .ok masked)
    (houtline : Outline.ofUnit unit = .ok outline) {e : Element} (he : e ∈ outline.elements) :
    ∃ statement ∈ joinLines masked, ∃ header : Header,
      header.signature statement.code = .ok e.signature := by
  have hmem := List.mem_map_of_mem (f := fun e => (e.startLine, e.signature))
    (Array.mem_toList_iff.2 he)
  rw [signatures_eq hmask houtline] at hmem
  obtain ⟨statement, hmem, hstatement⟩ := List.mem_filterMap.1 hmem
  obtain ⟨signature, hsignature, heq⟩ := Option.map_eq_some_iff.1 hstatement
  obtain rfl : signature = e.signature := congrArg Prod.snd heq
  unfold Statement.signature? at hsignature
  split at hsignature
  · obtain ⟨header, -, hheader⟩ := Option.bind_eq_some_iff.1 hsignature
    exact ⟨statement, hmem, header, toOption_eq_some.1 hheader⟩
  · cases hsignature

/-- A definition that takes the place of an accepted statement is accepted, and declares its
element. -/
theorem ofUnit_replace (hmask : mask unit = .ok masked)
    (houtline : Outline.ofUnit unit = .ok outline) (hmask' : mask other = .ok masked')
    {before after : List Statement} {s s' : Statement}
    (hjoin : joinLines masked = before ++ s :: after)
    (hjoin' : joinLines masked' = before ++ s' :: after) (h : s.Alike s') {signature : Signature}
    (hsignature : s'.signature? = some signature) :
    ∃ outline', Outline.ofUnit other = .ok outline' ∧
      outline'.lines.map LogicalLine.bare = outline.lines.map LogicalLine.bare ∧
      ∃ e ∈ outline'.elements, e.startLine = s'.startLine ∧ e.signature = signature := by
  have halike : List.Forall₂ Statement.Alike (joinLines masked) (joinLines masked') := by
    rw [hjoin, hjoin']
    exact forall₂_alike_append h
  obtain ⟨outline', houtline', hbare⟩ := ofUnit_alike hmask houtline hmask' halike
  exact ⟨outline', houtline', hbare,
    exists_element hmask' houtline' (by simp [hjoin']) hsignature⟩

end Outline

/-! ### Where elements start and end -/

section Spans

variable {lines lines' : Array LogicalLine} {i m m' : Nat}

theorem encloses_bare : Encloses (lines.map LogicalLine.bare) i m ↔ Encloses lines i m := by
  simp only [Encloses, Array.getElem?_map, Option.map_eq_some_iff]
  constructor
  · rintro ⟨hlt, _, ⟨header, hheader, rfl⟩, hopens, hinside⟩
    exact ⟨hlt, header, hheader, hopens, fun n line hn hle hline =>
      hinside n line.bare hn hle ⟨line, hline, rfl⟩⟩
  · rintro ⟨hlt, header, hheader, hopens, hinside⟩
    refine ⟨hlt, header.bare, ⟨header, hheader, rfl⟩, hopens, ?_⟩
    rintro n _ hn hle ⟨line, hline, rfl⟩
    exact hinside n line hn hle hline

theorem headersBefore_bare :
    headersBefore (lines.map LogicalLine.bare) i = headersBefore lines i := by
  rw [headersBefore, Array.toList_map, ← List.map_take, List.countP_map]
  rfl

theorem place?_bare : place? (lines.map LogicalLine.bare) i = place? lines i := by
  rw [place?, place?, headersBefore_bare, Array.getElem?_map, Option.any_map]
  rfl

theorem LastOf.unique (h : LastOf lines i m) (h' : LastOf lines i m') (hm : m < lines.size)
    (hm' : m' < lines.size) : m = m' :=
  le_antisymm (h'.upper hm h.1) (h.upper hm' h'.1)

/-- Elements start and end where the lines do that have the same places. -/
theorem Outline.WellNested.spans_eq {outline other : Outline} {n n' : Nat}
    (h : outline.WellNested n) (h' : other.WellNested n')
    (hbare : other.lines.map LogicalLine.bare = outline.lines.map LogicalLine.bare)
    (hspans : other.lines.toList.map (fun line => (line.startLine, line.endLine)) =
      outline.lines.toList.map fun line => (line.startLine, line.endLine)) :
    other.elements.toList.map (fun e => (e.startLine, e.endLine)) =
      outline.elements.toList.map fun e => (e.startLine, e.endLine) := by
  have hsize : other.lines.size = outline.lines.size := by simpa using congrArg Array.size hbare
  have hplace (i : Nat) : place? other.lines i = place? outline.lines i := by
    rw [← place?_bare, hbare, place?_bare]
  have hencloses (i m : Nat) : Encloses other.lines i m ↔ Encloses outline.lines i m := by
    rw [← encloses_bare, hbare, encloses_bare]
  have hlast (i m : Nat) : LastOf other.lines i m ↔ LastOf outline.lines i m := by
    simp only [LastOf, hencloses, hsize]
  have hspan {i : Nat} {line line' : LogicalLine} (hline : outline.lines[i]? = some line)
      (hline' : other.lines[i]? = some line') :
      (line'.startLine, line'.endLine) = (line.startLine, line.endLine) := by
    simpa [hline, hline'] using congrArg (·[i]?) hspans
  refine List.ext_getElem? fun k => ?_
  simp only [List.getElem?_map, Array.getElem?_toList]
  cases he : outline.elements[k]? with
  | none =>
    have hcount : other.elements.size = outline.elements.size := by
      rw [h.size, h'.size, ← headersBefore_bare, hbare, headersBefore_bare, hsize]
    have hnone : other.elements[k]? = none := by
      rw [Array.getElem?_eq_none_iff] at he ⊢
      omega
    simp [hnone]
  | some e =>
    obtain ⟨i, header, hheads⟩ := h.exists_heads he
    obtain ⟨header', hheader', -⟩ := place?_eq_some.1 ((hplace i).trans hheads.place)
    obtain ⟨e', he', hdescribes'⟩ := h'.element hheader' ((hplace i).trans hheads.place)
    obtain ⟨m, last, hm, hmlast, hend⟩ := hheads.describes.endLine
    obtain ⟨m', last', hm', hmlast', hend'⟩ := hdescribes'.endLine
    have hlt := (Array.getElem?_eq_some_iff.1 hmlast).1
    have hlt' := (Array.getElem?_eq_some_iff.1 hmlast').1
    obtain rfl : m = m' := hm.unique ((hlast i m').1 hm') hlt (hsize ▸ hlt')
    have hstarts := congrArg Prod.fst (hspan hheads.line hheader')
    have hends := congrArg Prod.snd (hspan hmlast hmlast')
    simp only at hstarts hends
    simp [he', hheads.describes.startLine, hdescribes'.startLine, hend, hend', hstarts, hends]

/-- What an element declares, and on which lines. -/
def Element.declaration (e : Element) : Signature × Nat × Nat :=
  (e.signature, e.startLine, e.endLine)

/-- Elements are declared by the statements that define them, if the lines have the same places. -/
theorem Outline.declarations_eq {unit other : SourceUnit} {masked masked' : List MaskedLine}
    {outline outline' : Outline} (hmask : mask unit = .ok masked)
    (houtline : Outline.ofUnit unit = .ok outline) (hmask' : mask other = .ok masked')
    (houtline' : Outline.ofUnit other = .ok outline')
    (hbare : outline'.lines.map LogicalLine.bare = outline.lines.map LogicalLine.bare)
    (hsame : (joinLines masked').map (fun s => (s.startLine, s.endLine, s.signature?)) =
      (joinLines masked).map fun s => (s.startLine, s.endLine, s.signature?)) :
    outline'.elements.toList.map Element.declaration =
      outline.elements.toList.map Element.declaration := by
  have hsignatures := signatures_eq hmask' houtline'
  have hlines (masked : List MaskedLine) : (joinLines masked).filterMap
        (fun s => s.signature?.map fun signature => (s.startLine, signature)) =
      ((joinLines masked).map fun s => (s.startLine, s.endLine, s.signature?)).filterMap
        fun s => s.2.2.map fun signature => (s.1, signature) := by
    rw [List.filterMap_map]
    rfl
  rw [hlines, hsame, ← hlines, ← signatures_eq hmask houtline] at hsignatures
  have hspans := (wellNested houtline).spans_eq (wellNested houtline') hbare (by
    have hproject (outline : Outline) :
        outline.lines.toList.map (fun line => (line.startLine, line.endLine)) =
          (outline.lines.toList.map LogicalLine.statement).map
            fun s => (s.startLine, s.endLine) := by
      rw [List.map_map]
      rfl
    rw [hproject, hproject, statement_outline hmask houtline, statement_outline hmask' houtline']
    simpa [Function.comp_def] using congrArg (List.map fun s => (s.1, s.2.1)) hsame)
  have hzip (elements : List Element) : elements.map Element.declaration =
      ((elements.map fun e => (e.startLine, e.signature)).zip
        (elements.map fun e => (e.startLine, e.endLine))).map fun p => (p.1.2, p.2) := by
    rw [List.zip_map', List.map_map]
    rfl
  rw [hzip, hsignatures, hspans, ← hzip]

end Spans

end CodeGrade
