import CodeGrade.Proofs.Shifting

/-!
# Texts below one another

A text below an accepted one is read as if it stood alone, as long as the first text leaves no line
to be continued. Everything that is carried from line to line and from statement to statement is
then at its initial value at the seam, or makes no difference. The second text is rejected for its
own reasons only; and if it starts at the margin, its outline follows that of the first text.

## Main definitions

* `Outline.Joins`: an outline is that of two texts, one below the other.
-/

namespace CodeGrade

/-! ### Lines and statements at the seam -/

/-- Accepted lines leave nothing open, so lines below them are masked from the start. -/
theorem maskFrom_append {number : Nat} {carry : Carry} {lines : List (List Char)}
    {masked : List MaskedLine} (h : maskFrom number carry lines = .ok masked)
    (more : List (List Char)) :
    maskFrom number carry (lines ++ more) =
      (maskFrom (number + lines.length) .empty more).map (masked ++ ·) := by
  induction lines generalizing number carry masked with
  | nil =>
    obtain ⟨hfault, rfl⟩ := maskFrom_nil_eq_ok.1 h
    obtain ⟨hstring, hbrackets⟩ := Carry.fault?_eq_none.1 hfault
    obtain rfl : carry = .empty := by
      cases carry
      simp_all [Carry.empty]
    cases hmore : maskFrom number .empty more <;> simp [Except.map, hmore]
  | cons raw rest ih =>
    obtain ⟨line, carry', lines, hline, hrest, rfl⟩ := maskFrom_cons_eq_ok.1 h
    have hnumber : number + (raw :: rest).length = number + 1 + rest.length := by
      rw [List.length_cons]
      omega
    rw [List.cons_append, maskFrom, hline, hnumber]
    simp only [bind, Except.bind, ih hrest]
    cases maskFrom (number + 1 + rest.length) .empty more <;> rfl

/-- A unit below an accepted one is masked as if it stood alone, but further down. -/
theorem mask_append {a b : SourceUnit} {masked : List MaskedLine} (h : mask a = .ok masked)
    (name : String) :
    mask ⟨name, a.lines ++ b.lines⟩ =
      shifted a.lines.length (fun below => masked ++ below.map (·.shift a.lines.length))
        (mask b) := by
  have hshift := maskFrom_shift a.lines.length 1 .empty b.lines
  rw [Carry.shift_empty] at hshift
  rw [mask, maskFrom_append h, hshift, mask]
  cases maskFrom 1 .empty b.lines <;> rfl

theorem joinFrom_append (current : Option Statement) (lines more : List MaskedLine) :
    joinFrom current (lines ++ more) =
      joinFrom current lines ++ joinFrom (openAfter current lines) more := by
  induction current, lines using joining_induction with
  | nil current => rfl
  | blank line rest hblank hextend ih => simpa [joinFrom, openAfter, hextend] using ih
  | continued current line statement rest hextend hcontinues ih =>
    simpa [joinFrom, openAfter, hextend, hcontinues] using ih
  | finished current line statement rest hextend hcontinues ih =>
    simpa [joinFrom, openAfter, hextend, hcontinues] using ih

/-- Lines whose last one does not continue leave no statement open. -/
theorem openAfter_eq_none {lines : List MaskedLine}
    (hlast : ∀ line ∈ lines.getLast?, line.continues = false) : openAfter none lines = none := by
  by_contra hopen
  have hdangling : Dangling lines := by
    simpa using isSome_openAfter.1 (Option.isSome_iff_ne_none.2 hopen)
  obtain ⟨before, line, after, rfl, -, hcontinues⟩ := hdangling
  obtain ⟨last, hmem⟩ : ∃ last, (line :: after).getLast? = some last :=
    ⟨_, List.getLast?_eq_some_getLast (List.cons_ne_nil line after)⟩
  have hfalse := hlast last (by simp [hmem])
  have htrue := hcontinues last (List.mem_of_getLast? hmem)
  rw [htrue] at hfalse
  cases hfalse

theorem joinLines_append {lines : List MaskedLine}
    (hlast : ∀ line ∈ lines.getLast?, line.continues = false) (n : Nat)
    (below : List MaskedLine) :
    joinLines (lines ++ below.map (·.shift n)) =
      joinLines lines ++ (joinLines below).map (·.shift n) := by
  rw [joinLines, joinFrom_append, openAfter_eq_none hlast]
  exact congrArg _ (joinFrom_shift n none below)

namespace Builder

/-! ### The builder at the seam -/

theorem after_empty (front : Builder) (n : Nat) :
    empty.after front n = ⟨front.elements, front.lines, [], [], none, none⟩ := by
  simp [after, empty]

/-- Below a whole outline, statements are refused as if they stood alone. -/
theorem steps_eq_error_below {front : Builder} {statements : List Statement}
    (hfront : empty.steps statements = .ok front) (n : Nat) (below : List Statement)
    (fault : Fault) :
    front.steps (below.map (·.shift n)) = .error fault ↔
      ∃ own, empty.steps below = .error own ∧ fault = own.shift n := by
  have hfirst : front.steps (below.map (·.shift n)) = .error fault ↔
      (firstFault? below).map (·.shift n) = some fault := by
    rw [steps_eq_error, awaiting_of_steps hfront, firstFault?_shift]
    rfl
  rw [hfirst, Option.map_eq_some_iff]
  constructor
  · rintro ⟨own, hown, rfl⟩
    exact ⟨own, steps_eq_error.2 hown, rfl⟩
  · rintro ⟨own, hown, rfl⟩
    exact ⟨own, steps_eq_error.1 hown, rfl⟩

/-- No docstring is looked for and no decorator is kept, unless the last statement asks for it. -/
structure Settled (b : Builder) : Prop where
  documenting : b.awaiting = none → b.documenting = none
  decorators : (∀ line ∈ b.lines.back?, line.code.head? ≠ some '@') → b.decorators = []

theorem nextDecorators_eq_nil {decorators : List (List Char)} {code : List Char}
    (h : code.head? ≠ some '@') : nextDecorators decorators code = [] := by
  unfold nextDecorators
  split
  · simp at h
  · rfl

theorem settled_of_steps {b : Builder} {statements : List Statement}
    (h : empty.steps statements = .ok b) : b.Settled := by
  refine invariant h ⟨fun _ => rfl, fun _ => rfl⟩ ?_
  intro b statement b' header element _ added
  constructor
  · intro hawaiting
    rw [added.awaiting] at hawaiting
    rw [added.documenting]
    split at hawaiting
    · cases hawaiting
    · rename_i hopens
      simp [hopens]
  · intro hlast
    rw [added.decorators]
    exact nextDecorators_eq_nil (hlast (b.nextLine statement header) (by simp [added.lines]))

/-- At the margin all blocks are closed: the statement is added as if none had been open. -/
theorem step_margin {front : Builder} (hawaiting : front.awaiting = none)
    (hdocumenting : front.documenting = none) (hdecorators : front.decorators = [])
    {statement : Statement} (hindent : statement.indent = 0) (n : Nat) :
    front.step statement = (empty.after front n).step statement := by
  obtain ⟨elements, lines, frames, decorators, awaiting, documenting⟩ := front
  simp only at hawaiting hdocumenting hdecorators
  subst hawaiting hdocumenting hdecorators
  have hclosed : ∀ frames, enclosing frames statement.indent = [] := by
    intro frames
    simp [enclosing, hindent]
  rw [after_empty, step_eq, step_eq]
  simp only [touched, next, nextLine, hclosed]

/-- Statements from the margin on are added to a whole outline as to one of their own. -/
theorem steps_margin {front result : Builder} {statements below : List Statement}
    (hfront : empty.steps statements = .ok front)
    (hlast : ∀ line ∈ front.lines.back?, line.code.head? ≠ some '@')
    (hfirst : ∀ statement ∈ below.head?, statement.indent = 0) {n : Nat}
    (hbelow : (empty.after front n).steps below = .ok result) :
    ∃ b, front.steps below = .ok b ∧ b.elements = result.elements ∧ b.lines = result.lines := by
  have hawaiting := awaiting_of_steps hfront
  cases below with
  | nil =>
    obtain rfl := Except.ok.inj hbelow
    refine ⟨front, ?_, ?_, ?_⟩
    · rw [steps, hawaiting]
      rfl
    · rw [after_empty]
    · rw [after_empty]
  | cons statement rest =>
    have hsettled := settled_of_steps hfront
    have hstep := step_margin hawaiting (hsettled.documenting hawaiting)
      (hsettled.decorators hlast) (hfirst statement rfl) n
    refine ⟨result, ?_, rfl, rfl⟩
    rw [steps, hstep, ← steps]
    exact hbelow

/-- The statements of a second text from the margin on add its own outline to that of the first. -/
theorem steps_below {front own : Builder} {statements below : List Statement}
    (hfront : empty.steps statements = .ok front)
    (hlast : ∀ line ∈ front.lines.back?, line.code.head? ≠ some '@')
    (hown : empty.steps below = .ok own)
    (hmargin : ∀ line ∈ own.lines[0]?, line.indent = 0) (n : Nat) :
    ∃ b, front.steps (below.map (·.shift n)) = .ok b ∧
      b.elements = (own.after front n).elements ∧ b.lines = (own.after front n).lines := by
  have hfirst : ∀ statement ∈ (below.map (·.shift n)).head?, statement.indent = 0 := by
    intro statement hstatement
    rw [← statement_lines hown, List.head?_map, List.head?_map, List.head?_eq_getElem?,
      Array.getElem?_toList] at hstatement
    obtain ⟨_, hfirst, rfl⟩ := Option.map_eq_some_iff.1 hstatement
    obtain ⟨line, hline, rfl⟩ := Option.map_eq_some_iff.1 hfirst
    exact hmargin line hline
  exact steps_margin hfront hlast hfirst (steps_after hown front n)

end Builder

/-! ### Outlines below one another -/

/-- The outline is that of two texts, the second of which is `n` lines further down: the elements,
statements and comments follow one another, and the counts add up. -/
structure Outline.Joins (outline first second : Outline) (n : Nat) : Prop where
  elements : outline.elements = first.elements ++
    second.elements.map (·.shift ⟨n, first.lines.size, first.elements.size⟩)
  lines : outline.lines = first.lines ++
    second.lines.map (·.shift ⟨n, first.lines.size, first.elements.size⟩)
  comments : outline.comments = first.comments ++ second.comments.map (·.shift n)
  totalLines : outline.metrics.totalLines = first.metrics.totalLines + second.metrics.totalLines
  blankLines : outline.metrics.blankLines = first.metrics.blankLines + second.metrics.blankLines
  commentLines :
    outline.metrics.commentLines = first.metrics.commentLines + second.metrics.commentLines
  functionCount :
    outline.metrics.functionCount = first.metrics.functionCount + second.metrics.functionCount
  classCount : outline.metrics.classCount = first.metrics.classCount + second.metrics.classCount
  maxFunctionLength : outline.metrics.maxFunctionLength =
    max first.metrics.maxFunctionLength second.metrics.maxFunctionLength

theorem Element.length_shift (o : Offset) (e : Element) : (e.shift o).length = e.length := by
  simp only [Element.length, Element.shift]
  omega

/-- The lengths of the functions among elements. -/
def functionLengths (elements : Array Element) : List Nat :=
  (elements.toList.filter (·.isFunction)).map (·.length)

/-- Moved functions are as long as before. -/
theorem functionLengths_append (first second : Array Element) (o : Offset) :
    functionLengths (first ++ second.map (·.shift o)) =
      functionLengths first ++ functionLengths second := by
  have hfunction : (fun e : Element => (e.shift o).isFunction) = (·.isFunction) := rfl
  simp [functionLengths, List.filter_map, Function.comp_def, hfunction, Element.length_shift]

theorem countP_isClass_append (first second : Array Element) (o : Offset) :
    (first ++ second.map (·.shift o)).toList.countP (·.isClass) =
      first.toList.countP (·.isClass) + second.toList.countP (·.isClass) := by
  have hclass : (fun e : Element => (e.shift o).isClass) = (·.isClass) := rfl
  simp [Function.comp_def, hclass]

theorem foldl_max_append (xs ys : List Nat) :
    (xs ++ ys).foldl max 0 = max (xs.foldl max 0) (ys.foldl max 0) := by
  have hmax : ys.foldl max (max (xs.foldl max 0) 0) = max (xs.foldl max 0) (ys.foldl max 0) :=
    List.foldl_assoc
  rwa [Nat.max_zero, ← List.foldl_append] at hmax

/-- A unit below an accepted one is rejected for its own faults only. -/
theorem ofUnit_eq_error_below {a b : SourceUnit} {masked : List MaskedLine} {first : Outline}
    (hfirst : Outline.ofUnit a = .ok first) (hmask : mask a = .ok masked)
    (hcontinues : ∀ line ∈ masked.getLast?, line.continues = false) (name : String)
    (fault : Fault) :
    Outline.ofUnit ⟨name, a.lines ++ b.lines⟩ = .error fault ↔
      ∃ own, Outline.ofUnit b = .error own ∧ fault = own.shift a.lines.length := by
  obtain ⟨masked', front, hmask', hfront, -⟩ := Outline.ofUnit_eq_ok.1 hfirst
  obtain rfl := Except.ok.inj (hmask'.symm.trans hmask)
  simp only [Outline.ofUnit_eq_error]
  rw [mask_append hmask]
  cases mask b with
  | error own => simp [eq_comm]
  | ok below =>
    simp only [shifted_ok, reduceCtorEq, Except.ok.injEq, false_or, exists_eq_left']
    rw [joinLines_append hcontinues, (Builder.steps_append hfront).2]
    exact Builder.steps_eq_error_below hfront a.lines.length (joinLines below) fault

/-- Two accepted units, the second of which starts at the margin, give the outline of both. -/
theorem joins_of_ok {a b : SourceUnit} {masked : List MaskedLine} {first second : Outline}
    (hfirst : Outline.ofUnit a = .ok first) (hmask : mask a = .ok masked)
    (hcontinues : ∀ line ∈ masked.getLast?, line.continues = false)
    (hsecond : Outline.ofUnit b = .ok second)
    (hdecorator : ∀ line ∈ first.lines.back?, line.code.head? ≠ some '@')
    (hmargin : ∀ line ∈ second.lines[0]?, line.indent = 0) (name : String) :
    ∃ outline, Outline.ofUnit ⟨name, a.lines ++ b.lines⟩ = .ok outline ∧
      outline.Joins first second a.lines.length := by
  obtain ⟨masked', front, hmask', hfront, rfl⟩ := Outline.ofUnit_eq_ok.1 hfirst
  obtain rfl := Except.ok.inj (hmask'.symm.trans hmask)
  obtain ⟨below, own, hbelow, hown, rfl⟩ := Outline.ofUnit_eq_ok.1 hsecond
  obtain ⟨whole, hwhole, helements, hlines⟩ :=
    Builder.steps_below hfront hdecorator hown hmargin a.lines.length
  have hmasked := mask_append (b := b) hmask name
  rw [hbelow, shifted_ok] at hmasked
  have hjoined := joinLines_append hcontinues a.lines.length below
  have hsteps : Builder.empty.steps
      (joinLines (masked' ++ below.map (·.shift a.lines.length))) = .ok whole := by
    rw [hjoined, (Builder.steps_append hfront).2]
    exact hwhole
  have hlengths := functionLengths_append front.elements own.elements (front.offset a.lines.length)
  refine ⟨_, Outline.ofUnit_eq_ok.2 ⟨_, whole, hmasked, hsteps, rfl⟩, ?_⟩
  constructor
  case elements => exact helements
  case lines => exact hlines
  case comments =>
    simp only
    rw [← commentsOf_shift, commentsOf, List.filterMap_append]
    rfl
  case totalLines => simp [Metrics.withElements, Metrics.ofLines]
  case blankLines => simp [Metrics.withElements, Metrics.ofLines]
  case commentLines => simp [Metrics.withElements, Metrics.ofLines]
  case functionCount =>
    have hcount := congrArg List.length hlengths
    rw [List.length_append] at hcount
    simp only [helements]
    exact hcount
  case classCount =>
    simp only [helements]
    exact countP_isClass_append front.elements own.elements (front.offset a.lines.length)
  case maxFunctionLength =>
    have hmax := congrArg (List.foldl max 0) hlengths
    rw [foldl_max_append] at hmax
    simp only [helements]
    exact hmax

/-- Reading is compositional. A text below an accepted one that leaves no line to be continued is
rejected for its own faults only, which are further down by the lines of the first text. If it is
accepted, the first text does not end in a decorator and the second starts at the margin, then the
outline is that of the first text followed by that of the second. -/
theorem ofUnit_append {a b : SourceUnit} {masked : List MaskedLine} {first : Outline}
    (hfirst : Outline.ofUnit a = .ok first) (hmask : mask a = .ok masked)
    (hcontinues : ∀ line ∈ masked.getLast?, line.continues = false) (name : String) :
    (∀ fault, Outline.ofUnit ⟨name, a.lines ++ b.lines⟩ = .error fault ↔
      ∃ own, Outline.ofUnit b = .error own ∧ fault = own.shift a.lines.length) ∧
    ∀ second, Outline.ofUnit b = .ok second →
      (∀ line ∈ first.lines.back?, line.code.head? ≠ some '@') →
      (∀ line ∈ second.lines[0]?, line.indent = 0) →
      ∃ outline, Outline.ofUnit ⟨name, a.lines ++ b.lines⟩ = .ok outline ∧
        outline.Joins first second a.lines.length := by
  constructor
  · exact ofUnit_eq_error_below hfirst hmask hcontinues name
  · intro second hsecond hdecorator hmargin
    exact joins_of_ok hfirst hmask hcontinues hsecond hdecorator hmargin name

/-- A class with a comment in it. -/
def classAbove : SourceUnit where
  name := "above"
  lines := ["class A:".toList, "    x = 1  # one".toList]

/-- A function over two lines. -/
def functionBelow : SourceUnit where
  name := "below"
  lines := ["def f():".toList, "    return 1".toList]

/-- A bracket that is not closed. -/
def bracketBelow : SourceUnit where
  name := "bracket"
  lines := ["y = 1".toList, "z = (".toList]

theorem classAbove_joins :
    ∃ masked first second outline, mask classAbove = .ok masked ∧
      (∀ line ∈ masked.getLast?, line.continues = false) ∧
      Outline.ofUnit classAbove = .ok first ∧
      (∀ line ∈ first.lines.back?, line.code.head? ≠ some '@') ∧
      Outline.ofUnit functionBelow = .ok second ∧
      (∀ line ∈ second.lines[0]?, line.indent = 0) ∧
      Outline.ofUnit ⟨"both", classAbove.lines ++ functionBelow.lines⟩ = .ok outline ∧
      outline.Joins first second 2 ∧
      Outline.ofUnit ⟨"both", classAbove.lines ++ bracketBelow.lines⟩ =
        .error ⟨4, .neverClosed '('⟩ := by
  have hmask : (mask classAbove).map (·.getLast?.map (·.continues)) = .ok (some false) := by
    decide +kernel
  have hfirst : (Outline.ofUnit classAbove).map (·.lines.back?.map (·.code.head?)) =
      .ok (some (some 'x')) := by decide +kernel
  have hsecond : (Outline.ofUnit functionBelow).map (·.lines[0]?.map (·.indent)) =
      .ok (some 0) := by decide +kernel
  have hrejected : mask bracketBelow = .error ⟨2, .neverClosed '('⟩ := by decide +kernel
  obtain ⟨masked, hmask, hlast⟩ := ok_map_iff.1 hmask
  obtain ⟨first, hfirst, hdecorator⟩ := ok_map_iff.1 hfirst
  obtain ⟨second, hsecond, hmargin⟩ := ok_map_iff.1 hsecond
  replace hlast : ∀ line ∈ masked.getLast?, line.continues = false := by grind
  replace hdecorator : ∀ line ∈ first.lines.back?, line.code.head? ≠ some '@' := by grind
  replace hmargin : ∀ line ∈ second.lines[0]?, line.indent = 0 := by grind
  obtain ⟨outline, houtline, hjoins⟩ :=
    (ofUnit_append hfirst hmask hlast "both").2 second hsecond hdecorator hmargin
  refine ⟨masked, first, second, outline, hmask, hlast, hfirst, hdecorator, hsecond, hmargin,
    houtline, hjoins, ?_⟩
  exact ((ofUnit_append hfirst hmask hlast "both").1 _).2
    ⟨_, Outline.ofUnit_eq_error.2 (.inl hrejected), rfl⟩

end CodeGrade
