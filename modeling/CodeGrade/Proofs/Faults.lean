import CodeGrade.Proofs.Brackets
import CodeGrade.Proofs.Statements

/-!
# Faults

Where the fault of a rejected text comes from: from masking, from a header whose block does not
follow, or from a single statement that is no proper header. In each case it is on a line of the
text.

## Main definitions

* `Carry.OpenedBefore`: what is open was opened on earlier lines.
* `Fault.Cause.Lexical`: the causes that masking finds.
* `Statement.fault?`: the fault of a statement by itself.
* `firstFault?`: the fault of the first statement that has one.
-/

namespace CodeGrade

theorem error_bind_iff {ε α β : Type} {first : Except ε α} {next : α → Except ε β} {fault : ε} :
    first >>= next = .error fault ↔
      first = .error fault ∨ ∃ value, first = .ok value ∧ next value = .error fault := by
  cases first with
  | error e => simp [bind, Except.bind]
  | ok value => simp [bind, Except.bind]

/-! ### Masking -/

/-- What is open was opened before line `n`. -/
structure Carry.OpenedBefore (carry : Carry) (n : Nat) : Prop where
  string : ∀ literal ∈ carry.string, 1 ≤ literal.line ∧ literal.line < n
  brackets : ∀ b ∈ carry.brackets, 1 ≤ b.line ∧ b.line < n

theorem Carry.openedBefore_empty (n : Nat) : Carry.empty.OpenedBefore n :=
  ⟨by simp [Carry.empty], by simp [Carry.empty]⟩

theorem emit_eq_error {code : List Char} {result : Except Fault ScannedLine} {fault : Fault} :
    emit code result = .error fault ↔ result = .error fault := by
  cases result <;> simp

theorem line_of_interpret_error {number : Nat} {string : Option OpenString}
    {brackets : List OpenBracket} {ls : List Lexeme} {fault : Fault}
    (h : interpret number string brackets ls = .error fault) : fault.line = number := by
  fun_induction interpret number string brackets ls <;> grind [emit_eq_error]

/-- What is open after a line was open before it or is opened on it. -/
theorem opened_of_interpret {number : Nat} {string : Option OpenString}
    {brackets : List OpenBracket} {ls : List Lexeme} {scanned : ScannedLine}
    (h : interpret number string brackets ls = .ok scanned) :
    (∀ literal ∈ scanned.carry.string, literal ∈ string ∨ literal.line = number) ∧
      ∀ b ∈ scanned.carry.brackets, b ∈ brackets ∨ b.line = number := by
  fun_induction interpret number string brackets ls generalizing scanned <;> grind [emit_eq_ok]

theorem Carry.OpenedBefore.scan {number : Nat} {carry : Carry} {raw : List Char}
    {scanned : ScannedLine} (h : carry.OpenedBefore number) (hnumber : 1 ≤ number)
    (hscan : scanLine number carry.string carry.brackets raw = .ok scanned) :
    scanned.carry.OpenedBefore (number + 1) := by
  rw [scanLine_eq_interpret] at hscan
  obtain ⟨hstring, hbrackets⟩ := opened_of_interpret hscan
  constructor
  · intro literal hl
    rcases hstring literal hl with hold | hnew
    · have := h.string literal hold
      omega
    · omega
  · intro b hb
    rcases hbrackets b hb with hold | hnew
    · have := h.brackets b hold
      omega
    · omega

theorem line_of_maskLine_error {number : Nat} {carry : Carry} {raw : List Char} {fault : Fault}
    (h : carry.OpenedBefore number) (hnumber : 1 ≤ number)
    (hline : maskLine number carry raw = .error fault) :
    1 ≤ fault.line ∧ fault.line ≤ number := by
  unfold maskLine at hline
  split at hline
  · obtain rfl := Except.error.inj hline
    exact ⟨hnumber, le_rfl⟩
  · rcases error_bind_iff.1 hline with hscan | ⟨scanned, hscan, hend⟩
    · rw [scanLine_eq_interpret] at hscan
      rw [line_of_interpret_error hscan]
      exact ⟨hnumber, le_rfl⟩
    · have hopened := h.scan hnumber hscan
      -- Only a literal in single marks that is still open makes the line fail now.
      split at hend
      · rename_i literal hliteral
        split at hend
        · cases hend
        · obtain rfl := Except.error.inj hend
          have hline := hopened.string literal hliteral
          exact ⟨hline.1, Nat.lt_succ_iff.1 hline.2⟩
      · cases hend

theorem line_of_carry_fault {n : Nat} {carry : Carry} {fault : Fault}
    (h : carry.OpenedBefore n) (hfault : carry.fault? = some fault) :
    1 ≤ fault.line ∧ fault.line < n := by
  unfold Carry.fault? at hfault
  split at hfault
  · rename_i literal hliteral
    obtain rfl := Option.some.inj hfault
    exact h.string literal hliteral
  · obtain ⟨b, hb, rfl⟩ := Option.map_eq_some_iff.1 hfault
    exact h.brackets b (List.mem_of_getLast? hb)

theorem line_of_maskFrom_error {number : Nat} {carry : Carry} {lines : List (List Char)}
    {fault : Fault} (h : carry.OpenedBefore number) (hnumber : 1 ≤ number)
    (hmask : maskFrom number carry lines = .error fault) :
    1 ≤ fault.line ∧ fault.line < number + lines.length := by
  induction lines generalizing number carry with
  | nil =>
    rw [maskFrom] at hmask
    split at hmask
    · rename_i hfault
      obtain rfl := Except.error.inj hmask
      exact line_of_carry_fault h hfault
    · cases hmask
  | cons raw rest ih =>
    rw [maskFrom] at hmask
    rw [List.length_cons]
    rcases error_bind_iff.1 hmask with hline | ⟨⟨line, carry'⟩, hline, hrest⟩
    · have := line_of_maskLine_error h hnumber hline
      omega
    · rcases error_bind_iff.1 hrest with hrest | ⟨lines, -, hdone⟩
      · obtain ⟨-, scanned, hscan, -, -, rfl⟩ := maskLine_eq_ok.1 hline
        have := ih (h.scan hnumber hscan) (by omega) hrest
        omega
      · cases hdone

/-- The cause is one that masking finds; a bracket that it names is one. -/
inductive Fault.Cause.Lexical : Fault.Cause → Prop where
  | undecodable : Lexical .undecodable
  | unmatched (b : Bracket) : Lexical (.unmatched b.closer)
  | openString : Lexical .openString
  | neverClosed (b : Bracket) : Lexical (.neverClosed b.opener)

theorem lexical_unmatched {c : Char} {b : Bracket} (h : Bracket.ofCloser? c = some b) :
    Fault.Cause.Lexical (.unmatched c) := by
  rw [Bracket.ofCloser?_eq_some.1 h]
  exact .unmatched b

theorem lexical_of_interpret_error {number : Nat} {string : Option OpenString}
    {brackets : List OpenBracket} {ls : List Lexeme} {fault : Fault}
    (h : interpret number string brackets ls = .error fault) : fault.cause.Lexical := by
  fun_induction interpret number string brackets ls <;>
    grind [emit_eq_error, lexical_unmatched]

theorem lexical_of_maskLine_error {number : Nat} {carry : Carry} {raw : List Char}
    {fault : Fault} (h : maskLine number carry raw = .error fault) : fault.cause.Lexical := by
  unfold maskLine at h
  split at h
  · rw [← Except.error.inj h]
    exact .undecodable
  · rcases error_bind_iff.1 h with hscan | ⟨scanned, -, hend⟩
    · rw [scanLine_eq_interpret] at hscan
      exact lexical_of_interpret_error hscan
    · split at hend
      · split at hend
        · cases hend
        · rw [← Except.error.inj hend]
          exact .openString
      · cases hend

theorem lexical_of_maskFrom_error {number : Nat} {carry : Carry} {lines : List (List Char)}
    {fault : Fault} (h : maskFrom number carry lines = .error fault) : fault.cause.Lexical := by
  induction lines generalizing number carry with
  | nil =>
    rw [maskFrom] at h
    split at h
    · rename_i hfault
      rw [← Except.error.inj h]
      unfold Carry.fault? at hfault
      split at hfault
      · rw [← Option.some.inj hfault]
        exact .openString
      · obtain ⟨b, -, rfl⟩ := Option.map_eq_some_iff.1 hfault
        exact .neverClosed b.bracket
    · cases h
  | cons raw rest ih =>
    rw [maskFrom] at h
    rcases error_bind_iff.1 h with hline | ⟨⟨line, carry'⟩, -, hrest⟩
    · exact lexical_of_maskLine_error hline
    · rcases error_bind_iff.1 hrest with hrest | ⟨lines, -, hdone⟩
      · exact ih hrest
      · cases hdone

/-! ### Statements -/

/-- What a header says about the element it defines, wherever the element stands. -/
structure Signature where
  name : List Char
  kind : ElementKind
  hasTypeHints : Bool
  params : List Parameter

/-- The element with a signature, where its header stands. -/
def Signature.element (signature : Signature) (statement : Statement) (header : Header)
    (place : Placement) : Element where
  name := signature.name
  kind := signature.kind
  startLine := statement.startLine
  endLine := statement.endLine
  depth := place.depth
  hasDocstring := isStringStatement header.inlineBody
  hasTypeHints := signature.hasTypeHints
  params := signature.params
  decorators := place.decorators
  parent := place.parent
  isMethod := place.inClass && signature.kind = .function

/-- The signature in the code of a header. -/
def Header.signature (header : Header) (code : List Char) : Except Fault.Cause Signature :=
  match if header.keyword = .classKw then className? code else none with
  | some name => .ok ⟨name, .classDef, false, []⟩
  | none =>
    match functionHeader? code with
    | none => .error .malformedHeader
    | some (name, list) =>
      match splitArguments 0 [] list with
      | none => .error .openParameters
      | some (pieces, rest) =>
        let params := pieces.filterMap Parameter.read?
        let untilColon := rest.take (header.colon - (code.length - rest.length))
        .ok ⟨name, .function,
          Text.contains ['-', '>'] untilColon || params.any Parameter.isHinted, params⟩

/-- The code of a header alone decides whether it defines an element. -/
theorem Element.ofHeader_eq (statement : Statement) (header : Header) (place : Placement) :
    Element.ofHeader statement header place =
      match header.signature statement.code with
      | .ok signature => .ok (signature.element statement header place)
      | .error cause => .error ⟨statement.startLine, cause⟩ := by
  simp only [Element.ofHeader, Header.signature]
  generalize (if header.keyword = .classKw then className? statement.code else none) = class?
  cases class? with
  | some name => rfl
  | none =>
    cases functionHeader? statement.code with
    | none => rfl
    | some definition =>
      cases hlist : splitArguments 0 [] definition.2 with
      | none => simp [hlist]
      | some parts => simp [hlist, Signature.element]

/-- The fault of a definition that is not complete. -/
def Statement.definitionFault? (statement : Statement) (header : Option Header) : Option Fault :=
  (header.filter (·.keyword.isDefinition)).bind fun header =>
    match header.signature statement.code with
    | .ok _ => none
    | .error cause => some ⟨statement.startLine, cause⟩

/-- The fault of a statement by itself: it defines something, and its header is not complete. -/
def Statement.fault? (statement : Statement) : Option Fault :=
  match Header.read statement with
  | .ok header => statement.definitionFault? header
  | .error fault => some fault

theorem line_of_fault? {statement : Statement} {fault : Fault}
    (h : statement.fault? = some fault) : fault.line = statement.startLine := by
  unfold Statement.fault? at h
  split at h
  · obtain ⟨header, -, hsignature⟩ := Option.bind_eq_some_iff.1 h
    split at hsignature
    · cases hsignature
    · rw [← Option.some.inj hsignature]
  · rename_i hread
    unfold Header.read at hread
    grind

namespace Builder

theorem define_eq_error {elements : Array Element} {frames : List Frame}
    {decorators : List (List Char)} {statement : Statement} {header : Option Header}
    {fault : Fault} :
    define elements frames decorators statement header = .error fault ↔
      statement.definitionFault? header = some fault := by
  unfold define Statement.definitionFault?
  cases header.filter (·.keyword.isDefinition) with
  | none => simp
  | some definition =>
    simp only [error_bind_iff, Element.ofHeader_eq, Option.bind_some]
    cases definition.signature statement.code <;> simp

/-- A statement is refused if a block was to start with it and does not, or by its own fault. -/
theorem step_eq_error {b : Builder} {statement : Statement} {fault : Fault} :
    b.step statement = .error fault ↔
      missingBlock? b.awaiting (some statement.indent) = some fault ∨
        missingBlock? b.awaiting (some statement.indent) = none ∧ statement.fault? = some fault := by
  unfold step Statement.fault?
  cases missingBlock? b.awaiting (some statement.indent) with
  | some missing => simp
  | none =>
    simp only [error_bind_iff, define_eq_error]
    cases Header.read statement <;> simp

theorem missingBlock?_eq_some {awaiting : Option LogicalLine} {indent : Option Nat}
    {fault : Fault} (h : missingBlock? awaiting indent = some fault) :
    ∃ header, awaiting = some header ∧ fault.line = header.startLine := by
  obtain ⟨header, rfl, hheader⟩ := Option.bind_eq_some_iff.1 h
  refine ⟨header, rfl, ?_⟩
  split at hheader
  · cases hheader
  · rw [← Option.some.inj hheader]

/-- The fault of a run is on the line of a statement that was read, the header that awaits its block
at first among them. -/
theorem line_of_steps_error {b : Builder} {statements : List Statement} {fault : Fault}
    (h : b.steps statements = .error fault) :
    (∃ header, b.awaiting = some header ∧ fault.line = header.startLine) ∨
      ∃ statement ∈ statements, fault.line = statement.startLine := by
  induction statements generalizing b with
  | nil =>
    unfold steps at h
    split at h
    · rename_i hmissing
      rw [← Except.error.inj h]
      exact .inl (missingBlock?_eq_some hmissing)
    · cases h
  | cons statement rest ih =>
    rw [steps] at h
    rcases error_bind_iff.1 h with hstep | ⟨b', hstep, hrest⟩
    · rcases step_eq_error.1 hstep with hmissing | ⟨-, hfault⟩
      · exact .inl (missingBlock?_eq_some hmissing)
      · exact .inr ⟨statement, List.mem_cons_self, line_of_fault? hfault⟩
    · obtain ⟨header, element, added⟩ := step_eq_ok hstep
      right
      rcases ih hrest with ⟨awaited, hawaited, hline⟩ | ⟨later, hlater, hline⟩
      · -- The header that awaits its block is the statement itself.
        refine ⟨statement, List.mem_cons_self, ?_⟩
        rw [added.awaiting] at hawaited
        split at hawaited
        · rw [hline, ← Option.some.inj hawaited]
          rfl
        · cases hawaited
      · exact ⟨later, List.mem_cons_of_mem _ hlater, hline⟩

end Builder

/-! ### The first fault -/

/-- Whether a block starts below the statement. -/
def Statement.opensBlock (statement : Statement) : Bool :=
  match Header.read statement with
  | .ok header => header.any (·.inlineBody.isEmpty)
  | .error _ => false

/-- The fault of a statement with a block below it that the next statement does not start. -/
def Statement.blockFault? (statement : Statement) (next : Option Statement) : Option Fault :=
  if statement.opensBlock && !next.any (statement.indent < ·.indent) then
    some ⟨statement.startLine, .missingBlock⟩
  else none

/-- The fault of a statement that stands before another one, if any: its own fault, or else that of
its block. -/
def Statement.faultBefore? (statement : Statement) (next : Option Statement) : Option Fault :=
  statement.fault?.or (statement.blockFault? next)

/-- The fault of the first statement that has one. -/
def firstFault? : List Statement → Option Fault
  | [] => none
  | statement :: rest => (statement.faultBefore? rest.head?).or (firstFault? rest)

theorem firstFault?_eq_some {statements : List Statement} {fault : Fault} :
    firstFault? statements = some fault ↔
      ∃ (i : Nat) (statement : Statement), statements[i]? = some statement ∧
        statement.faultBefore? statements[i + 1]? = some fault ∧
        ∀ j < i, ∀ earlier ∈ statements[j]?,
          Statement.faultBefore? earlier statements[j + 1]? = none := by
  induction statements with
  | nil => simp [firstFault?]
  | cons first rest ih =>
    rw [firstFault?, Option.or_eq_some_iff, ih, List.head?_eq_getElem?]
    constructor
    · rintro (hfirst | ⟨hnone, i, statement, hi, hfault, hbefore⟩)
      · exact ⟨0, first, rfl, hfirst, by simp⟩
      · refine ⟨i + 1, statement, hi, hfault, ?_⟩
        rintro (_ | j) hj earlier hearlier
        · obtain rfl := Option.some.inj hearlier
          exact hnone
        · exact hbefore j (by omega) earlier hearlier
    · rintro ⟨_ | i, statement, hi, hfault, hbefore⟩
      · obtain rfl := Option.some.inj hi
        exact .inl hfault
      · refine .inr ⟨hbefore 0 (by omega) first rfl, i, statement, hi, hfault, ?_⟩
        exact fun j hj earlier hearlier => hbefore (j + 1) (by omega) earlier hearlier

namespace Builder

/-- What a statement awaits is decided when the next statement is there. -/
theorem Added.missingBlock?_awaiting {b b' : Builder} {statement : Statement}
    {header : Option Header} {element : Option Nat} (added : Added b statement b' header element)
    (next : Option Statement) :
    missingBlock? b'.awaiting (next.map (·.indent)) = statement.blockFault? next := by
  have hopens : (b.nextLine statement header).opensBlock = statement.opensBlock := by
    rw [Statement.opensBlock, added.read]
    rfl
  rw [added.awaiting, hopens, Statement.blockFault?]
  cases statement.opensBlock with
  | false => rfl
  | true =>
    have hany : (next.map (·.indent)).any (statement.indent < ·) =
        next.any (statement.indent < ·.indent) := by
      cases next <;> rfl
    have hindent : (b.nextLine statement header).indent = statement.indent := rfl
    simp only [↓reduceIte, missingBlock?, Option.bind_some, hindent, hany, Bool.true_and]
    cases next.any (statement.indent < ·.indent) <;> rfl

/-- A run fails with the first fault: that of the header that awaits its block, or else the first
one of the statements. -/
theorem steps_eq_error {b : Builder} {statements : List Statement} {fault : Fault} :
    b.steps statements = .error fault ↔
      (missingBlock? b.awaiting (statements.head?.map (·.indent))).or (firstFault? statements) =
        some fault := by
  induction statements generalizing b with
  | nil =>
    rw [steps, List.head?_nil, Option.map_none]
    cases missingBlock? b.awaiting none <;> simp [firstFault?]
  | cons statement rest ih =>
    have herror := @step_eq_error b statement
    rw [steps, error_bind_iff, herror, List.head?_cons, Option.map_some, firstFault?]
    cases hstep : b.step statement with
    | error own =>
      have hown := herror.1 hstep
      cases hmissing : missingBlock? b.awaiting (some statement.indent) with
      | some missing => simp
      | none =>
        rw [hmissing] at hown
        have hfault : statement.fault? = some own := by simpa using hown
        simp [Statement.faultBefore?, hfault]
    | ok b' =>
      obtain ⟨header, element, added⟩ := step_eq_ok hstep
      have hfault : statement.fault? = none := by
        by_contra hne
        obtain ⟨own, hown⟩ := Option.ne_none_iff_exists'.1 hne
        rw [herror.2 (.inr ⟨added.awaited, hown⟩)] at hstep
        cases hstep
      simp [Statement.faultBefore?, added.awaited, hfault, ih, added.missingBlock?_awaiting]

end Builder

/-! ### Units -/

theorem Outline.ofUnit_eq_error {unit : SourceUnit} {fault : Fault} :
    Outline.ofUnit unit = .error fault ↔
      mask unit = .error fault ∨
        ∃ masked, mask unit = .ok masked ∧
          Builder.empty.steps (joinLines masked) = .error fault := by
  unfold Outline.ofUnit
  simp only [error_bind_iff, reduceCtorEq, and_false, exists_false, or_false]

/-- A unit that can be masked is rejected for the first fault of its statements. -/
theorem Outline.ofUnit_eq_error_of_mask {unit : SourceUnit} {masked : List MaskedLine}
    (hmask : mask unit = .ok masked) {fault : Fault} :
    Outline.ofUnit unit = .error fault ↔ firstFault? (joinLines masked) = some fault := by
  simp only [Outline.ofUnit_eq_error, hmask, Builder.steps_eq_error, reduceCtorEq, false_or,
    Except.ok.injEq, exists_eq_left']
  rfl

/-- The fault of a unit is on one of its lines. -/
theorem line_of_ofUnit_error {unit : SourceUnit} {fault : Fault}
    (h : Outline.ofUnit unit = .error fault) :
    1 ≤ fault.line ∧ fault.line ≤ unit.lines.length := by
  rcases Outline.ofUnit_eq_error.1 h with hmask | ⟨masked, hmask, hsteps⟩
  · have := line_of_maskFrom_error (Carry.openedBefore_empty 1) le_rfl hmask
    omega
  · rcases Builder.line_of_steps_error hsteps with ⟨header, hheader, -⟩ | ⟨statement, hmem, hline⟩
    · cases hheader
    · have := (ordered_joinLines hmask).bounds statement hmem
      omega

end CodeGrade
