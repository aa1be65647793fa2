import CodeGrade.Proofs.Building
import CodeGrade.Text.Blank

/-!
# Statements and the lines they are joined from

Joining leaves out a statement that is still open after the last line. With that one put back, the
statements take up all the code of the lines, in order, and cover each line that has code.

## Main definitions

* `openAfter`: the statement that is open after the last line.
* `segments`: the joined statements and the open one.
* `Dangling`: the lines end in a statement that is never finished.
* `CodeKept`: all the code of masked lines arrives in the logical lines of an outline.
-/

namespace CodeGrade

namespace Text

theorem dropBlanks_append (a b : List Char) : dropBlanks (a ++ b) = dropBlanks a ++ dropBlanks b :=
  List.filter_append ..

@[simp] theorem dropBlanks_nil : dropBlanks [] = [] := rfl

theorem dropBlanks_space (text : List Char) : dropBlanks (' ' :: text) = dropBlanks text := rfl

theorem dropBlanks_eq_nil {text : List Char} : dropBlanks text = [] ↔ allBlank text = true := by
  simp [dropBlanks, allBlank]

theorem dropBlanks_trimStart (text : List Char) :
    dropBlanks (trimStart text) = dropBlanks text := by
  induction text with
  | nil => rfl
  | cons c rest ih =>
    cases hc : isBlank c with
    | true => simpa [trimStart, dropBlanks, hc] using ih
    | false => simp [trimStart, hc]

theorem dropBlanks_reverse (text : List Char) :
    dropBlanks text.reverse = (dropBlanks text).reverse := by
  simp [dropBlanks]

@[simp] theorem dropBlanks_trim (text : List Char) : dropBlanks (trim text) = dropBlanks text := by
  have hend (text : List Char) : dropBlanks (trimEnd text) = dropBlanks text := by
    rw [trimEnd, dropBlanks_reverse, ← trimStart, dropBlanks_trimStart, dropBlanks_reverse,
      List.reverse_reverse]
  rw [trim, hend, dropBlanks_trimStart]

/-- Trimming leaves nothing of a blank text only. -/
theorem trim_eq_nil {text : List Char} : trim text = [] ↔ allBlank text = true := by
  constructor
  · intro h
    rw [← dropBlanks_eq_nil, ← dropBlanks_trim, h, dropBlanks_nil]
  · intro h
    have hstart : trimStart text = [] := by
      simpa [trimStart, allBlank] using h
    simp [trim, hstart, trimEnd]

end Text

/-! ### The statement that is open after the last line -/

/-- The statement that is open after lines, given the one that is open before them. -/
def openAfter (current : Option Statement) : List MaskedLine → Option Statement
  | [] => current
  | line :: rest =>
    match Statement.extend current line with
    | some statement =>
      if line.continues then openAfter (some statement) rest else openAfter none rest
    | none => openAfter none rest

/-- The statements of lines, with the one that is left open at their end. -/
def segments (current : Option Statement) (lines : List MaskedLine) : List Statement :=
  joinFrom current lines ++ (openAfter current lines).toList

@[simp] theorem segments_nil (current : Option Statement) :
    segments current [] = current.toList := rfl

theorem segments_cons (current : Option Statement) (line : MaskedLine) (rest : List MaskedLine) :
    segments current (line :: rest) =
      match Statement.extend current line with
      | some statement =>
        if line.continues then segments (some statement) rest else statement :: segments none rest
      | none => segments none rest := by
  simp only [segments, joinFrom, openAfter]
  cases Statement.extend current line with
  | none => rfl
  | some statement => cases line.continues <;> rfl

theorem extend_eq_none {current : Option Statement} {line : MaskedLine} :
    Statement.extend current line = none ↔ current = none ∧ Text.allBlank line.code = true := by
  rw [← Text.trim_eq_nil]
  cases current <;> simp [Statement.extend]

/-- A statement ends with the last line it was extended by, and starts where it started. -/
theorem extend_eq_some {current : Option Statement} {line : MaskedLine} {statement : Statement}
    (h : Statement.extend current line = some statement) :
    statement.endLine = line.number ∧
      statement.startLine = (current.map (·.startLine)).getD line.number := by
  cases current with
  | none =>
    by_cases hcode : (Text.trim line.code).isEmpty = true
    · simp [Statement.extend, hcode] at h
    · simp only [Statement.extend, hcode, Bool.false_eq_true, ↓reduceIte, Option.some.injEq] at h
      simp [← h]
  | some before =>
    simp only [Statement.extend, Option.some.injEq] at h
    simp [← h]

/-- Induction along the lines that are joined: a line without code outside all statements, a line
that leaves its statement open, and a line that finishes it. -/
@[elab_as_elim]
theorem joining_induction {motive : Option Statement → List MaskedLine → Prop}
    (nil : ∀ current, motive current [])
    (blank : ∀ line rest, Text.allBlank line.code = true → Statement.extend none line = none →
      motive none rest → motive none (line :: rest))
    (continued : ∀ current line statement rest, Statement.extend current line = some statement →
      line.continues = true → motive (some statement) rest → motive current (line :: rest))
    (finished : ∀ current line statement rest, Statement.extend current line = some statement →
      line.continues = false → motive none rest → motive current (line :: rest))
    (current : Option Statement) (lines : List MaskedLine) : motive current lines := by
  induction lines generalizing current with
  | nil => exact nil current
  | cons line rest ih =>
    cases hextend : Statement.extend current line with
    | none =>
      obtain ⟨rfl, hblank⟩ := extend_eq_none.1 hextend
      exact blank line rest hblank hextend (ih none)
    | some statement =>
      cases hcontinues : line.continues with
      | true => exact continued current line statement rest hextend hcontinues (ih _)
      | false => exact finished current line statement rest hextend hcontinues (ih none)

/-! ### No code is lost on the way -/

/-- The code of statements, without blanks. -/
def visible (statements : List Statement) : List Char :=
  Text.dropBlanks (statements.flatMap (·.code))

@[simp] theorem visible_nil : visible [] = [] := rfl

theorem visible_cons (statement : Statement) (rest : List Statement) :
    visible (statement :: rest) = visible [statement] ++ visible rest := by
  simp [visible, Text.dropBlanks_append]

theorem visible_append (a b : List Statement) : visible (a ++ b) = visible a ++ visible b := by
  simp [visible, Text.dropBlanks_append]

theorem visible_extend {current : Option Statement} {line : MaskedLine} {statement : Statement}
    (h : Statement.extend current line = some statement) :
    visible [statement] = visible current.toList ++ Text.dropBlanks line.code := by
  by_cases htrim : Text.trim line.code = []
  · have hcode := Text.dropBlanks_eq_nil.2 (Text.trim_eq_nil.1 htrim)
    cases current with
    | none => simp [Statement.extend, htrim] at h
    | some before =>
      simp only [Statement.extend, htrim, List.isEmpty_nil, ↓reduceIte, Option.some.injEq] at h
      simp [← h, visible, hcode]
  · rw [← Text.dropBlanks_trim line.code]
    cases current with
    | none =>
      simp only [Statement.extend, List.isEmpty_iff, htrim, ↓reduceIte, Option.some.injEq] at h
      simp [← h, visible]
    | some before =>
      simp only [Statement.extend, List.isEmpty_iff, htrim, ↓reduceIte, Option.some.injEq] at h
      simp [← h, visible, Text.dropBlanks_append, Text.dropBlanks_space]

/-- The statements of lines, the open one among them, hold the code of the lines in order. -/
theorem visible_segments (current : Option Statement) (lines : List MaskedLine) :
    visible (segments current lines) =
      visible current.toList ++ Text.dropBlanks (lines.flatMap (·.code)) := by
  induction current, lines using joining_induction with
  | nil current => simp
  | blank line rest hblank hextend ih =>
    simp [segments_cons, hextend, ih, Text.dropBlanks_append, Text.dropBlanks_eq_nil.2 hblank]
  | continued current line statement rest hextend hcontinues ih =>
    simp [segments_cons, hextend, hcontinues, ih, visible_extend hextend, Text.dropBlanks_append]
  | finished current line statement rest hextend hcontinues ih =>
    simp only [segments_cons, hextend, hcontinues, Bool.false_eq_true, ↓reduceIte]
    rw [visible_cons, visible_extend hextend, ih]
    simp [visible, Text.dropBlanks_append]

/-- The statement that is open after lines has code. -/
theorem visible_openAfter_ne_nil {current : Option Statement} {lines : List MaskedLine}
    (hcurrent : ∀ statement ∈ current, visible [statement] ≠ []) :
    ∀ statement ∈ openAfter current lines, visible [statement] ≠ [] := by
  induction current, lines using joining_induction with
  | nil current => exact hcurrent
  | blank line rest hblank hextend ih => simpa [openAfter, hextend] using ih (by simp)
  | continued current line statement rest hextend hcontinues ih =>
    simp only [openAfter, hextend, hcontinues, ↓reduceIte]
    refine ih ?_
    rintro _ ⟨⟩
    rw [visible_extend hextend]
    cases current with
    | none =>
      have hne : ¬ Text.allBlank line.code = true := fun h => by
        simp [extend_eq_none.2 ⟨rfl, h⟩] at hextend
      simpa [Text.dropBlanks_eq_nil] using hne
    | some before => simp [hcurrent before rfl]
  | finished current line statement rest hextend hcontinues ih =>
    simpa [openAfter, hextend, hcontinues] using ih (by simp)

/-! ### Statements follow one another -/

/-- Statements on lines from `lo` up to `hi`, each of which starts after the one before it ends. -/
def Ordered (lo hi : Nat) : List Statement → Prop
  | [] => True
  | statement :: rest =>
    lo ≤ statement.startLine ∧ statement.startLine ≤ statement.endLine ∧ statement.endLine < hi ∧
      Ordered (statement.endLine + 1) hi rest

theorem Ordered.left {lo hi : Nat} {a b : List Statement} (h : Ordered lo hi (a ++ b)) :
    Ordered lo hi a := by
  induction a generalizing lo with
  | nil => trivial
  | cons statement rest ih => exact ⟨h.1, h.2.1, h.2.2.1, ih h.2.2.2⟩

theorem Ordered.bounds {lo hi : Nat} {statements : List Statement} (h : Ordered lo hi statements) :
    ∀ s ∈ statements, lo ≤ s.startLine ∧ s.startLine ≤ s.endLine ∧ s.endLine < hi := by
  induction statements generalizing lo with
  | nil => simp
  | cons statement rest ih =>
    obtain ⟨hlo, hspan, hhi, hrest⟩ := h
    intro s hs
    rcases List.mem_cons.1 hs with rfl | hs
    · exact ⟨hlo, hspan, hhi⟩
    · have := ih hrest s hs
      omega

theorem Ordered.pairwise {lo hi : Nat} {statements : List Statement}
    (h : Ordered lo hi statements) :
    statements.Pairwise fun a b => a.endLine < b.startLine := by
  induction statements generalizing lo with
  | nil => exact .nil
  | cons statement rest ih =>
    refine .cons (fun s hs => ?_) (ih h.2.2.2)
    have := h.2.2.2.bounds s hs
    omega

/-- The numbers of lines, one after another. -/
def Numbered (n : Nat) (lines : List MaskedLine) : Prop :=
  lines.map (·.number) = List.range' n lines.length

theorem numbered_cons {n : Nat} {line : MaskedLine} {rest : List MaskedLine} :
    Numbered n (line :: rest) ↔ line.number = n ∧ Numbered (n + 1) rest := by
  simp [Numbered, List.range'_succ]

/-- A statement that is extended by line `n` ends there, and starts no later. -/
theorem ordered_extend {n lo : Nat} {current : Option Statement} {line : MaskedLine}
    {statement : Statement} (hline : line.number = n) (hlo : lo ≤ n)
    (hcurrent : Ordered lo n current.toList)
    (hextend : Statement.extend current line = some statement) :
    lo ≤ statement.startLine ∧ statement.startLine ≤ statement.endLine ∧ statement.endLine = n := by
  obtain ⟨hend, hstart⟩ := extend_eq_some hextend
  cases current with
  | none =>
    simp only [Option.map_none, Option.getD_none] at hstart
    omega
  | some before =>
    obtain ⟨hlo', hspan, hhi, -⟩ := hcurrent
    simp only [Option.map_some, Option.getD_some] at hstart
    omega

/-- Statements are joined from lines in order. -/
theorem ordered_segments {n lo hi : Nat} {lines : List MaskedLine} (current : Option Statement)
    (hlines : Numbered n lines) (hlo : lo ≤ n) (hhi : n + lines.length = hi)
    (hcurrent : Ordered lo n current.toList) : Ordered lo hi (segments current lines) := by
  induction current, lines using joining_induction generalizing n lo with
  | nil current =>
    subst hhi
    exact hcurrent
  | blank line rest hblank hextend ih =>
    rw [List.length_cons] at hhi
    simp only [segments_cons, hextend]
    exact ih (numbered_cons.1 hlines).2 (by omega) (by omega) trivial
  | continued current line statement rest hextend hcontinues ih =>
    obtain ⟨hnumber, hrest⟩ := numbered_cons.1 hlines
    obtain ⟨hlo', hspan, hend⟩ := ordered_extend hnumber hlo hcurrent hextend
    rw [List.length_cons] at hhi
    simp only [segments_cons, hextend, hcontinues, ↓reduceIte]
    exact ih hrest (by omega) (by omega) ⟨hlo', hspan, by omega, trivial⟩
  | finished current line statement rest hextend hcontinues ih =>
    obtain ⟨hnumber, hrest⟩ := numbered_cons.1 hlines
    obtain ⟨hlo', hspan, hend⟩ := ordered_extend hnumber hlo hcurrent hextend
    rw [List.length_cons] at hhi
    simp only [segments_cons, hextend, hcontinues, Bool.false_eq_true, ↓reduceIte]
    refine ⟨hlo', hspan, by omega, ?_⟩
    rw [hend]
    exact ih hrest le_rfl (by omega) trivial

/-- A statement that is open goes on into one that starts where it does. -/
theorem exists_segment_of_open {n : Nat} {statement : Statement} {lines : List MaskedLine}
    (hlines : Numbered n lines) (hn : statement.endLine < n) :
    ∃ s ∈ segments (some statement) lines,
      s.startLine = statement.startLine ∧ statement.endLine ≤ s.endLine := by
  induction lines generalizing n statement with
  | nil => exact ⟨statement, by simp, rfl, le_rfl⟩
  | cons line rest ih =>
    obtain ⟨hnumber, hrest⟩ := numbered_cons.1 hlines
    cases hextend : Statement.extend (some statement) line with
    | none => simp [Statement.extend] at hextend
    | some longer =>
      obtain ⟨hend, hstart⟩ := extend_eq_some hextend
      simp only [Option.map_some, Option.getD_some] at hstart
      cases hcontinues : line.continues with
      | true =>
        obtain ⟨s, hs, hs₁, hs₂⟩ := ih hrest (by omega : longer.endLine < n + 1)
        exact ⟨s, by simpa [segments_cons, hextend, hcontinues] using hs, by omega, by omega⟩
      | false => exact ⟨longer, by simp [segments_cons, hextend, hcontinues], hstart, by omega⟩

/-- Each line with code is covered by a statement. -/
theorem exists_segment_of_code {n lo : Nat} {lines : List MaskedLine} (current : Option Statement)
    (hlines : Numbered n lines) (hlo : lo ≤ n) (hcurrent : Ordered lo n current.toList) :
    ∀ line ∈ lines, Text.allBlank line.code = false →
      ∃ s ∈ segments current lines, s.startLine ≤ line.number ∧ line.number ≤ s.endLine := by
  induction current, lines using joining_induction generalizing n lo with
  | nil current => simp
  | blank line rest hblank hextend ih =>
    intro target htarget hcode
    simp only [segments_cons, hextend]
    rcases List.mem_cons.1 htarget with rfl | htarget
    · simp [hblank] at hcode
    · exact ih (numbered_cons.1 hlines).2 le_rfl trivial target htarget hcode
  | continued current line statement rest hextend hcontinues ih =>
    obtain ⟨hnumber, hrest⟩ := numbered_cons.1 hlines
    obtain ⟨hlo', hspan, hend⟩ := ordered_extend hnumber hlo hcurrent hextend
    intro target htarget hcode
    simp only [segments_cons, hextend, hcontinues, ↓reduceIte]
    rcases List.mem_cons.1 htarget with rfl | htarget
    · obtain ⟨s, hs, hs₁, hs₂⟩ :=
        exists_segment_of_open hrest (by omega : statement.endLine < n + 1)
      exact ⟨s, hs, by omega, by omega⟩
    · exact ih hrest (by omega : lo ≤ n + 1) ⟨hlo', hspan, by omega, trivial⟩ target htarget hcode
  | finished current line statement rest hextend hcontinues ih =>
    obtain ⟨hnumber, hrest⟩ := numbered_cons.1 hlines
    obtain ⟨hlo', hspan, hend⟩ := ordered_extend hnumber hlo hcurrent hextend
    intro target htarget hcode
    simp only [segments_cons, hextend, hcontinues, Bool.false_eq_true, ↓reduceIte, List.mem_cons]
    rcases List.mem_cons.1 htarget with rfl | htarget
    · exact ⟨statement, .inl rfl, by omega, by omega⟩
    · obtain ⟨s, hs, hspan'⟩ := ih hrest le_rfl trivial target htarget hcode
      exact ⟨s, .inr hs, hspan'⟩

/-! ### A statement without an end -/

/-- The lines end in a statement that is never finished: from a line with code on, they all
continue. -/
def Dangling (lines : List MaskedLine) : Prop :=
  ∃ before line after, lines = before ++ line :: after ∧ Text.allBlank line.code = false ∧
    ∀ l ∈ line :: after, l.continues = true

theorem not_dangling_nil : ¬ Dangling [] := by simp [Dangling]

theorem dangling_cons {line : MaskedLine} {rest : List MaskedLine} :
    Dangling (line :: rest) ↔
      (Text.allBlank line.code = false ∧ ∀ l ∈ line :: rest, l.continues = true) ∨
        Dangling rest := by
  constructor
  · rintro ⟨before, start, after, hsplit, hcode, hcontinues⟩
    cases before with
    | nil =>
      obtain ⟨rfl, rfl⟩ := List.cons.inj hsplit
      exact .inl ⟨hcode, hcontinues⟩
    | cons first before =>
      exact .inr ⟨before, start, after, (List.cons.inj hsplit).2, hcode, hcontinues⟩
  · rintro (⟨hcode, hcontinues⟩ | ⟨before, start, after, rfl, h⟩)
    · exact ⟨[], line, rest, rfl, hcode, hcontinues⟩
    · exact ⟨line :: before, start, after, rfl, h⟩

/-- A statement is left open if it was open before and all lines continue it, or if the lines end
in one that is never finished. -/
theorem isSome_openAfter {current : Option Statement} {lines : List MaskedLine} :
    (openAfter current lines).isSome = true ↔
      (current.isSome = true ∧ ∀ l ∈ lines, l.continues = true) ∨ Dangling lines := by
  induction current, lines using joining_induction with
  | nil current => simp [openAfter, not_dangling_nil]
  | blank line rest hblank hextend ih =>
    simp [openAfter, hextend, ih, dangling_cons, hblank]
  | continued current line statement rest hextend hcontinues ih =>
    have hstarted : current.isSome = true ∨ Text.allBlank line.code = false := by
      by_contra h
      simp only [not_or, Option.not_isSome_iff_eq_none, Bool.not_eq_false] at h
      simp [extend_eq_none.2 h] at hextend
    simp only [openAfter, hextend, hcontinues, ↓reduceIte, ih, dangling_cons, Option.isSome_some,
      List.forall_mem_cons, true_and]
    tauto
  | finished current line statement rest hextend hcontinues ih =>
    simp [openAfter, hextend, hcontinues, ih, dangling_cons]

/-- All the code of masked lines arrives in the logical lines: each line with code lies in the span
of exactly one of them, and their code is that of the lines, blanks apart. -/
def CodeKept (masked : List MaskedLine) (outline : Outline) : Prop :=
  (∀ line ∈ masked, Text.allBlank line.code = false →
    ∃! k : Nat, ∃ l : LogicalLine,
      outline.lines[k]? = some l ∧ l.startLine ≤ line.number ∧ line.number ≤ l.endLine) ∧
  Text.dropBlanks (outline.lines.toList.flatMap (·.code)) =
    Text.dropBlanks (masked.flatMap (·.code))

theorem numbered_maskFrom {number : Nat} {carry : Carry} {lines : List (List Char)}
    {masked : List MaskedLine} (h : maskFrom number carry lines = .ok masked) :
    Numbered number masked := by
  have hraw := congrArg List.length (raw_maskFrom h)
  rw [List.length_map] at hraw
  rw [Numbered, number_maskFrom h, hraw]

/-- The logical lines of an outline are the statements of the masked lines. -/
theorem statement_outline {unit : SourceUnit} {masked : List MaskedLine} {outline : Outline}
    (hmask : mask unit = .ok masked) (houtline : Outline.ofUnit unit = .ok outline) :
    outline.lines.toList.map LogicalLine.statement = joinLines masked := by
  obtain ⟨masked', b, hmask', hsteps, rfl⟩ := Outline.ofUnit_eq_ok.1 houtline
  obtain rfl := Except.ok.inj (hmask'.symm.trans hmask)
  exact Builder.statement_lines hsteps

/-- The statements of masked lines follow one another on these lines. -/
theorem ordered_joinLines {number : Nat} {carry : Carry} {lines : List (List Char)}
    {masked : List MaskedLine} (hmask : maskFrom number carry lines = .ok masked) :
    Ordered number (number + lines.length) (joinLines masked) := by
  have hlength := congrArg List.length (raw_maskFrom hmask)
  rw [List.length_map] at hlength
  have hsegments := ordered_segments none (numbered_maskFrom hmask) le_rfl rfl trivial
  rw [hlength] at hsegments
  exact hsegments.left

/-- The statements of an outline follow one another on the lines of its unit. -/
theorem ordered_outline {unit : SourceUnit} {outline : Outline}
    (houtline : Outline.ofUnit unit = .ok outline) :
    Ordered 1 (1 + unit.lines.length) (outline.lines.toList.map LogicalLine.statement) := by
  obtain ⟨masked, b, hmask, hsteps, rfl⟩ := Outline.ofUnit_eq_ok.1 houtline
  rw [Builder.statement_lines hsteps]
  exact ordered_joinLines hmask

/-- Two logical lines that share a line of the unit are one. -/
theorem index_eq_of_shared {unit : SourceUnit} {outline : Outline}
    (houtline : Outline.ofUnit unit = .ok outline) {j k n : Nat} {l m : LogicalLine}
    (hj : outline.lines[j]? = some l) (hk : outline.lines[k]? = some m)
    (hl : l.startLine ≤ n ∧ n ≤ l.endLine) (hm : m.startLine ≤ n ∧ n ≤ m.endLine) : j = k := by
  have hpairwise := List.pairwise_map.1 (ordered_outline houtline).pairwise
  rw [List.pairwise_iff_getElem] at hpairwise
  obtain ⟨hj', rfl⟩ := Array.getElem?_eq_some_iff.1 hj
  obtain ⟨hk', rfl⟩ := Array.getElem?_eq_some_iff.1 hk
  simp only [LogicalLine.statement, Array.length_toList, Array.getElem_toList] at hpairwise
  rcases Nat.lt_trichotomy j k with hlt | rfl | hlt
  · have := hpairwise j k hj' hk' hlt
    omega
  · rfl
  · have := hpairwise k j hk' hj' hlt
    omega

/-- No code is lost unless the lines end in a statement that is never finished, which is left
out. -/
theorem codeKept_iff_not_dangling {unit : SourceUnit} {masked : List MaskedLine}
    {outline : Outline} (hmask : mask unit = .ok masked)
    (houtline : Outline.ofUnit unit = .ok outline) :
    CodeKept masked outline ↔ ¬ Dangling masked := by
  have hlines := statement_outline hmask houtline
  have hcode := visible_segments none masked
  have hvisible : Text.dropBlanks (outline.lines.toList.flatMap (·.code)) =
      visible (joinLines masked) := by
    rw [← hlines]
    simp [visible, List.flatMap_map, LogicalLine.statement]
  constructor
  · rintro ⟨-, hkept⟩ hdangling
    have hsome : (openAfter none masked).isSome = true := isSome_openAfter.2 (.inr hdangling)
    obtain ⟨statement, hopen⟩ := Option.isSome_iff_exists.1 hsome
    have hne := visible_openAfter_ne_nil (by simp) statement hopen
    rw [segments, hopen, visible_append, ← joinLines, ← hvisible, hkept] at hcode
    simp at hcode
    exact hne hcode
  · intro hdangling
    have hopen : openAfter none masked = none := by
      rw [← Option.not_isSome_iff_eq_none, isSome_openAfter]
      simp [hdangling]
    have hsegments : segments none masked = joinLines masked := by
      simp [segments, hopen, joinLines]
    refine ⟨fun line hline hblank => ?_, ?_⟩
    · obtain ⟨s, hs, hspan⟩ :=
        exists_segment_of_code none (numbered_maskFrom hmask) le_rfl trivial line hline hblank
      rw [hsegments, ← hlines, List.mem_map] at hs
      obtain ⟨l, hl, rfl⟩ := hs
      obtain ⟨k, hk⟩ := List.mem_iff_getElem?.1 hl
      rw [Array.getElem?_toList] at hk
      refine ⟨k, ⟨l, hk, hspan⟩, ?_⟩
      rintro j ⟨m, hj, hm⟩
      exact index_eq_of_shared houtline hj hk hm hspan
    · rw [hvisible, ← hsegments, hcode]
      simp

/-- One line, joined to a line that does not follow. -/
def unfinishedLine : MaskedLine :=
  ⟨1, ['x', ' ', '=', ' ', '1', ' ', '\\'], ['x', ' ', '=', ' ', '1', ' '], none, true⟩

/-- The only statement of a unit is lost if a backslash joins it to a line that does not follow: it
dangles, and no logical line holds it. -/
theorem code_lost_after_join :
    mask ⟨"unfinished", [unfinishedLine.raw]⟩ = .ok [unfinishedLine] ∧
      Dangling [unfinishedLine] ∧
      ∃ outline, Outline.ofUnit ⟨"unfinished", [unfinishedLine.raw]⟩ = .ok outline ∧
        outline.lines = #[] ∧ ¬ CodeKept [unfinishedLine] outline := by
  have hmask : mask ⟨"unfinished", [unfinishedLine.raw]⟩ = .ok [unfinishedLine] := by decide
  have houtline := Outline.ofUnit_eq_ok.2 ⟨_, .empty, hmask, rfl, rfl⟩
  have hdangling : Dangling [unfinishedLine] :=
    ⟨[], unfinishedLine, [], rfl, by decide, by simp [unfinishedLine]⟩
  refine ⟨hmask, hdangling, _, houtline, rfl, ?_⟩
  rw [codeKept_iff_not_dangling hmask houtline]
  exact not_not_intro hdangling

end CodeGrade
