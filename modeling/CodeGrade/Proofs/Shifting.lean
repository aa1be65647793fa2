import CodeGrade.Proofs.Relabelling

/-!
# Moving a text down

Lines that stand further down in a text are masked, joined and nested as before. Only the numbers
in what they give are greater: those of lines, of statements and of elements, each by an offset of
its own. Everything here is said of a text below another one, whose outline stays in front.

## Main definitions

* `Offset`: how far lines, statements and elements are moved.
* `shifted`: what a computation gives when it is moved, fault included.
* `Builder.after`: an outline that is built behind another one.
-/

namespace CodeGrade

/-- How far lines, statements and elements are moved. -/
structure Offset where
  lines : Nat
  statements : Nat
  elements : Nat

def Fault.shift (n : Nat) (fault : Fault) : Fault := { fault with line := fault.line + n }

def OpenString.shift (n : Nat) (literal : OpenString) : OpenString :=
  { literal with line := literal.line + n }

def OpenBracket.shift (n : Nat) (b : OpenBracket) : OpenBracket := { b with line := b.line + n }

def Carry.shift (n : Nat) (carry : Carry) : Carry :=
  ⟨carry.string.map (·.shift n), carry.brackets.map (·.shift n)⟩

def ScannedLine.shift (n : Nat) (scanned : ScannedLine) : ScannedLine :=
  { scanned with carry := scanned.carry.shift n }

def MaskedLine.shift (n : Nat) (line : MaskedLine) : MaskedLine :=
  { line with number := line.number + n }

def Statement.shift (n : Nat) (statement : Statement) : Statement :=
  { statement with startLine := statement.startLine + n, endLine := statement.endLine + n }

def Comment.shift (n : Nat) (comment : Comment) : Comment :=
  { comment with line := comment.line + n }

/-- A moved element. An element that is in no other stays so. -/
def Element.shift (o : Offset) (e : Element) : Element :=
  { e with
    startLine := e.startLine + o.lines
    endLine := e.endLine + o.lines
    parent := e.parent.map (· + o.elements) }

/-- A moved logical line. -/
def LogicalLine.shift (o : Offset) (line : LogicalLine) : LogicalLine :=
  { line with
    index := line.index + o.statements
    startLine := line.startLine + o.lines
    endLine := line.endLine + o.lines
    parents := line.parents.map (· + o.statements)
    owner := line.owner.map (· + o.elements) }

def Frame.shift (o : Offset) (frame : Frame) : Frame :=
  { frame with
    index := frame.index + o.statements
    element := frame.element.map (· + o.elements) }

/-! ### Computations that may fail -/

/-- What a computation gives when it is moved by `n` lines: the moved result, or the moved fault. -/
def shifted {α β : Type} (n : Nat) (f : α → β) : Except Fault α → Except Fault β
  | .ok value => .ok (f value)
  | .error fault => .error (fault.shift n)

@[simp] theorem shifted_ok {α β : Type} (n : Nat) (f : α → β) (value : α) :
    shifted n f (.ok value) = .ok (f value) := rfl

@[simp] theorem shifted_error {α β : Type} (n : Nat) (f : α → β) (fault : Fault) :
    shifted n f (.error fault) = .error (fault.shift n) := rfl

theorem shifted_bind {α β γ δ : Type} {n : Nat} {f : α → β} {g : γ → δ} {first : Except Fault α}
    {next : α → Except Fault γ} {next' : β → Except Fault δ}
    (h : ∀ value, next' (f value) = shifted n g (next value)) :
    shifted n f first >>= next' = shifted n g (first >>= next) := by
  cases first with
  | error fault => rfl
  | ok value => exact h value

/-! ### Masking -/

theorem Carry.shift_empty (n : Nat) : Carry.empty.shift n = .empty := rfl

theorem emit_shifted (n : Nat) (code : List Char) (result : Except Fault ScannedLine) :
    emit code (shifted n (·.shift n) result) = shifted n (·.shift n) (emit code result) := by
  cases result <;> rfl

theorem interpret_shift (n number : Nat) (string : Option OpenString)
    (brackets : List OpenBracket) (ls : List Lexeme) :
    interpret (number + n) (string.map (·.shift n)) (brackets.map (·.shift n)) ls =
      shifted n (·.shift n) (interpret number string brackets ls) := by
  induction ls generalizing string brackets with
  | nil => rfl
  | cons l rest ih =>
    cases l with
    | plain c =>
      unfold interpret
      cases Bracket.ofOpener? c with
      | some bracket =>
        rw [← emit_shifted, ← ih]
        rfl
      | none =>
        cases Bracket.ofCloser? c with
        | none => rw [← emit_shifted, ← ih]
        | some bracket =>
          cases brackets with
          | nil => rfl
          | cons top outer =>
            by_cases htop : top.bracket = bracket
            · simp only [List.map_cons, OpenBracket.shift, htop, ↓reduceIte, ← emit_shifted, ← ih]
            · simp only [List.map_cons, OpenBracket.shift, htop, ↓reduceIte]
              rfl
    | opening d =>
      simp only [interpret, ← emit_shifted, ← ih]
      rfl
    | closing d => simp only [interpret, ← emit_shifted, ← ih, Option.map_none]
    | content c => simp only [interpret, ← ih]
    | escape next =>
      cases next with
      | none => rfl
      | some c => simp only [interpret, ← ih]
    | comment text => rfl
    | join => rfl

theorem scanLine_shift (n number : Nat) (carry : Carry) (raw : List Char) :
    scanLine (number + n) (carry.shift n).string (carry.shift n).brackets raw =
      shifted n (·.shift n) (scanLine number carry.string carry.brackets raw) := by
  have hdelimiter : (carry.shift n).string.map (·.delimiter) =
      carry.string.map (·.delimiter) := by
    simp [Carry.shift, OpenString.shift, Function.comp_def]
  rw [scanLine_eq_interpret, scanLine_eq_interpret, hdelimiter]
  exact interpret_shift n number carry.string carry.brackets _

theorem maskLine_shift (n number : Nat) (carry : Carry) (raw : List Char) :
    maskLine (number + n) (carry.shift n) raw =
      shifted n (fun (line, carry) => (line.shift n, carry.shift n))
        (maskLine number carry raw) := by
  unfold maskLine
  split
  · rfl
  · rw [scanLine_shift]
    refine shifted_bind fun scanned => ?_
    cases hstring : scanned.carry.string with
    | none => simp [ScannedLine.shift, Carry.shift, MaskedLine.shift, hstring]
    | some literal =>
      by_cases hend : literal.delimiter.triple || scanned.escaped
      · simp [ScannedLine.shift, Carry.shift, MaskedLine.shift, OpenString.shift, hstring, hend]
      · simp [ScannedLine.shift, Carry.shift, OpenString.shift, Fault.shift, hstring, hend]

theorem Carry.fault?_shift (n : Nat) (carry : Carry) :
    (carry.shift n).fault? = carry.fault?.map (·.shift n) := by
  obtain ⟨string, brackets⟩ := carry
  cases string with
  | some literal => rfl
  | none =>
    cases hlast : brackets.getLast? with
    | none => simp [Carry.fault?, Carry.shift, hlast]
    | some b => simp [Carry.fault?, Carry.shift, hlast, OpenBracket.shift, Fault.shift]

theorem maskFrom_shift (n number : Nat) (carry : Carry) (lines : List (List Char)) :
    maskFrom (number + n) (carry.shift n) lines =
      shifted n (List.map (·.shift n)) (maskFrom number carry lines) := by
  induction lines generalizing number carry with
  | nil =>
    rw [maskFrom, maskFrom, Carry.fault?_shift]
    cases carry.fault? <;> rfl
  | cons raw rest ih =>
    rw [maskFrom, maskFrom, maskLine_shift]
    refine shifted_bind ?_
    rintro ⟨line, carry⟩
    dsimp only
    rw [Nat.add_right_comm, ih]
    exact shifted_bind fun lines => rfl

/-! ### Statements -/

theorem extend_shift (n : Nat) (current : Option Statement) (line : MaskedLine) :
    Statement.extend (current.map (·.shift n)) (line.shift n) =
      (Statement.extend current line).map (·.shift n) := by
  cases current with
  | none =>
    by_cases hcode : (Text.trim line.code).isEmpty = true
    · simp [Statement.extend, MaskedLine.shift, hcode]
    · simp [Statement.extend, MaskedLine.shift, Statement.shift, hcode]
  | some statement => rfl

theorem joinFrom_shift (n : Nat) (current : Option Statement) (lines : List MaskedLine) :
    joinFrom (current.map (·.shift n)) (lines.map (·.shift n)) =
      (joinFrom current lines).map (·.shift n) := by
  induction current, lines using joining_induction with
  | nil current => rfl
  | blank line rest hblank hextend ih =>
    rw [List.map_cons, joinFrom, joinFrom, extend_shift, hextend]
    exact ih
  | continued current line statement rest hextend hcontinues ih =>
    rw [List.map_cons, joinFrom, joinFrom, extend_shift, hextend]
    simp only [Option.map_some, MaskedLine.shift, hcontinues, ↓reduceIte]
    exact ih
  | finished current line statement rest hextend hcontinues ih =>
    rw [List.map_cons, joinFrom, joinFrom, extend_shift, hextend]
    simp only [Option.map_some, MaskedLine.shift, hcontinues, Bool.false_eq_true, ↓reduceIte]
    exact congrArg _ ih

theorem commentsOf_shift (n : Nat) (lines : List MaskedLine) :
    commentsOf (lines.map (·.shift n)) = (commentsOf lines).map (·.shift n) := by
  simp only [commentsOf, List.filterMap_map, List.map_filterMap]
  refine List.filterMap_congr fun line _ => ?_
  cases hcomment : line.comment <;> simp [MaskedLine.shift, Comment.shift, hcomment]

/-! ### Building an outline behind another one -/

/-- Moving down is a relabelling that keeps all indentations. -/
def Offset.relabelling (o : Offset) : Relabelling :=
  .ofLine (· + o.lines) o.statements o.elements

/-- Statements further down are refused as before. -/
theorem firstFault?_shift (n : Nat) (statements : List Statement) :
    firstFault? (statements.map (·.shift n)) = (firstFault? statements).map (·.shift n) :=
  @firstFault?_relabel (Offset.relabelling ⟨n, 0, 0⟩) statements fun _ _ => Set.mem_univ _

namespace Builder

/-- How far what is built behind an outline is moved, if it is `n` lines further down. -/
def offset (front : Builder) (n : Nat) : Offset := ⟨n, front.lines.size, front.elements.size⟩

/-- The outline `b`, built behind the outline `front` and `n` lines further down. -/
def after (b front : Builder) (n : Nat) : Builder where
  elements := front.elements ++ b.elements.map (·.shift (front.offset n))
  lines := front.lines ++ b.lines.map (·.shift (front.offset n))
  frames := b.frames.map (·.shift (front.offset n))
  decorators := b.decorators
  awaiting := b.awaiting.map (·.shift (front.offset n))
  documenting := b.documenting.map (· + front.elements.size)

/-- Statements that are accepted add the same behind another outline. -/
theorem steps_after {b b' : Builder} {statements : List Statement}
    (h : b.steps statements = .ok b') (front : Builder) (n : Nat) :
    (b.after front n).steps (statements.map (·.shift n)) = .ok (b'.after front n) :=
  @steps_behind (front.offset n).relabelling b b' front statements h ⟨rfl, rfl⟩
    ⟨fun _ _ => Set.mem_univ _, fun _ _ => Set.mem_univ _⟩ fun _ _ => Set.mem_univ _

end Builder

end CodeGrade
