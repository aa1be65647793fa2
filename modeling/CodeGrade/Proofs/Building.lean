import CodeGrade.Proofs.Masking
import CodeGrade.Source.Scope

/-!
# Building an outline

Each statement adds one logical line to an outline, and a header of a definition also adds one
element. What one statement changes is said once here, as `Builder.Added`; properties of whole
outlines follow by induction over the statements.

## Main definitions

* `LogicalLine.statement`: the statement of a logical line.
* `Builder.Added`: what adding one statement makes of an outline.
-/

namespace CodeGrade

/-- The statement that a logical line was made from. -/
def LogicalLine.statement (line : LogicalLine) : Statement :=
  ⟨line.startLine, line.endLine, line.indent, line.code⟩

namespace Builder

/-- The elements after the elements around a statement were stretched over it, and after the
element that awaits its docstring has looked at it. -/
def touched (b : Builder) (statement : Statement) : Array Element :=
  document (stretch b.elements (owners (enclosing b.frames statement.indent)) statement.endLine)
    b.documenting statement.code

/-- The logical line that a statement with the given header becomes. -/
def nextLine (b : Builder) (statement : Statement) (header : Option Header) : LogicalLine :=
  logicalLine b.lines.size (enclosing b.frames statement.indent) statement header

/-- The outline `b'` is `b` with one statement added, whose header and element are given. -/
structure Added (b : Builder) (statement : Statement) (b' : Builder) (header : Option Header)
    (element : Option Nat) : Prop where
  awaited : missingBlock? b.awaiting (some statement.indent) = none
  read : Header.read statement = .ok header
  defined : define (b.touched statement) (enclosing b.frames statement.indent) b.decorators
    statement header = .ok (b'.elements, element)
  lines : b'.lines = b.lines.push (b.nextLine statement header)
  frames : b'.frames = if (b.nextLine statement header).opensBlock then
    ⟨statement.indent, b.lines.size, element⟩ :: enclosing b.frames statement.indent
    else enclosing b.frames statement.indent
  decorators : b'.decorators = nextDecorators b.decorators statement.code
  awaiting : b'.awaiting = if (b.nextLine statement header).opensBlock then
    some (b.nextLine statement header) else none
  documenting : b'.documenting = if (b.nextLine statement header).opensBlock then element else none

/-- A successful step adds its statement. -/
theorem step_eq_ok {b b' : Builder} {statement : Statement} (h : b.step statement = .ok b') :
    ∃ header element, Added b statement b' header element := by
  unfold step at h
  split at h
  · simp at h
  · rename_i hawaited
    obtain ⟨header, hheader, h⟩ := ok_bind_iff.1 h
    obtain ⟨⟨elements, element⟩, hdefine, h⟩ := ok_bind_iff.1 h
    simp only [Except.ok.injEq] at h
    subst h
    exact ⟨header, element, ⟨hawaited, hheader, hdefine, rfl, rfl, rfl, rfl, rfl⟩⟩

/-- The outline after a statement whose header is given, with the elements that are there then and
the element that the statement defines. -/
def next (b : Builder) (statement : Statement) (header : Option Header) (elements : Array Element)
    (element : Option Nat) : Builder where
  elements
  lines := b.lines.push (b.nextLine statement header)
  frames :=
    if (b.nextLine statement header).opensBlock then
      ⟨statement.indent, b.lines.size, element⟩ :: enclosing b.frames statement.indent
    else enclosing b.frames statement.indent
  decorators := nextDecorators b.decorators statement.code
  awaiting :=
    if (b.nextLine statement header).opensBlock then some (b.nextLine statement header) else none
  documenting := if (b.nextLine statement header).opensBlock then element else none

theorem step_eq (b : Builder) (statement : Statement) :
    b.step statement =
      match missingBlock? b.awaiting (some statement.indent) with
      | some fault => .error fault
      | none =>
        Header.read statement >>= fun header =>
          define (b.touched statement) (enclosing b.frames statement.indent) b.decorators
            statement header >>= fun (elements, element) =>
              .ok (b.next statement header elements element) :=
  rfl

/-- What a statement adds is what the step gives. -/
theorem Added.step_eq {b b' : Builder} {statement : Statement} {header : Option Header}
    {element : Option Nat} (added : Added b statement b' header element) :
    b.step statement = .ok b' := by
  have hnext : b.next statement header b'.elements element = b' := by
    rw [next, ← added.lines, ← added.frames, ← added.decorators, ← added.awaiting,
      ← added.documenting]
  rw [Builder.step_eq, added.awaited, added.read]
  simp only [bind, Except.bind, added.defined, hnext]

/-- A definition adds its element at the end, anything else adds none. -/
theorem define_eq_ok {elements elements' : Array Element} {frames : List Frame}
    {decorators : List (List Char)} {statement : Statement} {header : Option Header}
    {element : Option Nat}
    (h : define elements frames decorators statement header = .ok (elements', element)) :
    (header.any (·.keyword.isDefinition) = false ∧ elements' = elements ∧ element = none) ∨
      ∃ header' e, header = some header' ∧ header'.keyword.isDefinition = true ∧
        Element.ofHeader statement header'
          { depth := (owners frames).length
            parent := (owners frames).head?
            inClass := ((owners frames).head?.bind (elements[·]?)).any (·.isClass)
            decorators } = .ok e ∧
        elements' = elements.push e ∧ element = some elements.size := by
  unfold define at h
  split at h
  · rename_i hheader
    simp only [Except.ok.injEq, Prod.mk.injEq] at h
    refine .inl ⟨?_, h.1.symm, h.2.symm⟩
    cases header with
    | none => rfl
    | some header' => simpa using hheader
  · rename_i header' hheader
    obtain ⟨rfl, hkeyword⟩ := Option.filter_eq_some_iff.1 hheader
    obtain ⟨e, he, h⟩ := ok_bind_iff.1 h
    simp only [Except.ok.injEq, Prod.mk.injEq] at h
    exact .inr ⟨header', e, rfl, hkeyword, he, h.1.symm, h.2.symm⟩

/-- A property of the statements read and the outline built, if it holds at first and every
statement keeps it, holds of a whole run. -/
theorem steps_induction {P : List Statement → Builder → Prop} {b b' : Builder}
    (before : List Statement) {statements : List Statement}
    (h : b.steps statements = .ok b') (start : P before b)
    (step : ∀ read b statement b' header element, P read b →
      Added b statement b' header element → P (read ++ [statement]) b') :
    P (before ++ statements) b' := by
  induction statements generalizing b before with
  | nil =>
    unfold steps at h
    split at h
    · simp at h
    · simp only [Except.ok.injEq] at h
      simpa [← h] using start
  | cons statement rest ih =>
    rw [steps] at h
    obtain ⟨b₁, hstep, h⟩ := ok_bind_iff.1 h
    obtain ⟨header, element, added⟩ := step_eq_ok hstep
    have next := step before b statement b₁ header element start added
    simpa using ih (before ++ [statement]) h next

/-- What holds of the empty outline and is kept by every statement holds of every outline. -/
theorem invariant {P : Builder → Prop} {b : Builder} {statements : List Statement}
    (h : empty.steps statements = .ok b) (start : P empty)
    (step : ∀ b statement b' header element, P b → Added b statement b' header element → P b') :
    P b :=
  steps_induction (P := fun _ b => P b) [] h start fun _ => step

/-- A whole outline awaits no block, and statements that follow go on from it. -/
theorem steps_append {b b' : Builder} {statements : List Statement}
    (h : b.steps statements = .ok b') :
    b'.awaiting = none ∧ ∀ more, b.steps (statements ++ more) = b'.steps more := by
  induction statements generalizing b with
  | nil =>
    unfold steps at h
    split at h
    · simp at h
    · rename_i hawaiting
      obtain rfl := Except.ok.inj h
      refine ⟨?_, fun more => rfl⟩
      cases hheader : b.awaiting with
      | none => rfl
      | some header => simp [hheader, missingBlock?] at hawaiting
  | cons statement rest ih =>
    rw [steps] at h
    obtain ⟨b₁, hstep, h⟩ := ok_bind_iff.1 h
    obtain ⟨hawaiting, happend⟩ := ih h
    refine ⟨hawaiting, fun more => ?_⟩
    rw [List.cons_append, steps, hstep, ← happend]
    rfl

theorem awaiting_of_steps {b b' : Builder} {statements : List Statement}
    (h : b.steps statements = .ok b') : b'.awaiting = none :=
  (steps_append h).1

/-- The logical lines of an outline are its statements, in order. -/
theorem statement_lines {statements : List Statement} {b : Builder}
    (h : empty.steps statements = .ok b) :
    b.lines.toList.map LogicalLine.statement = statements := by
  refine steps_induction (P := fun read b => b.lines.toList.map LogicalLine.statement = read) [] h
    rfl ?_
  intro read b statement b' header element hread added
  simp [added.lines, hread, LogicalLine.statement, nextLine, logicalLine]

end Builder

/-- An outline is built from the statements of the masked lines. -/
theorem Outline.ofUnit_eq_ok {unit : SourceUnit} {outline : Outline} :
    Outline.ofUnit unit = .ok outline ↔
      ∃ masked b, mask unit = .ok masked ∧ Builder.empty.steps (joinLines masked) = .ok b ∧
        outline = ⟨b.elements, b.lines, commentsOf masked,
          (Metrics.ofLines unit.lines).withElements
            ((b.elements.toList.filter (·.isFunction)).map (·.length))
            (b.elements.toList.countP (·.isClass))⟩ := by
  unfold Outline.ofUnit
  simp only [ok_bind_iff, Except.ok.injEq]
  grind

end CodeGrade
