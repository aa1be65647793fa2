import CodeGrade.Proofs.Decisions
import CodeGrade.Proofs.Splicing

/-!
# Blanks between tokens

A run of blanks in the code of a statement, perhaps over several lines inside brackets, is replaced
by another gap. The text is still accepted, its statements are nested as before, and its functions
are the same. What a function decides is the same, too; its complexity may differ only by the wide
loops in it.

## Main definitions

* `Text.extendCode`: code with the code of one more line.
* `Statement.Respaced`: statements whose code differs in runs of blanks only.
* `Respacing`: a run of blanks, and the gap that takes its place.
-/

namespace CodeGrade

namespace Text

/-! ### The code of a line and the next -/

theorem allBlank_append_left {text : List Char} (h : allBlank text = false) (rest : List Char) :
    allBlank (text ++ rest) = false := by
  rw [allBlank_append, h, Bool.false_and]

theorem exists_first_visible {text : List Char} (h : allBlank text = false) :
    ∃ blanks c rest, text = blanks ++ c :: rest ∧ allBlank blanks = true ∧ isBlank c = false := by
  obtain ⟨blanks, hblanks, htext, hhead⟩ := trimStart_eq_iff.1 (rfl : trimStart text = _)
  cases htrim : trimStart text with
  | nil =>
    rw [htrim, List.append_nil] at htext
    rw [htext, hblanks] at h
    cases h
  | cons c rest =>
    rw [htrim] at htext hhead
    exact ⟨blanks, c, rest, htext, hblanks, by simpa using hhead⟩

theorem exists_last_visible {text : List Char} (h : allBlank text = false) :
    ∃ front c blanks, text = front ++ c :: blanks ∧ allBlank blanks = true ∧ isBlank c = false := by
  obtain ⟨blanks, c, front, htext, hblanks, hc⟩ :=
    @exists_first_visible text.reverse (by simpa [allBlank] using h)
  refine ⟨front.reverse, c, blanks.reverse, ?_, by simpa [allBlank] using hblanks, hc⟩
  simpa using congrArg List.reverse htext

/-- The code of a statement with the code of one more line. -/
def extendCode (code line : List Char) : List Char :=
  if allBlank line then code else code ++ ' ' :: trim line

theorem extendCode_append (front code line : List Char) :
    extendCode (front ++ code) line = front ++ extendCode code line := by
  rw [extendCode, extendCode]
  split
  · rfl
  · rw [List.append_assoc]

theorem extendCode_blank_left {blanks : List Char} (h : allBlank blanks = true)
    (code line : List Char) : extendCode code (blanks ++ line) = extendCode code line := by
  have hblank : allBlank (blanks ++ line) = allBlank line := by
    rw [allBlank_append, h, Bool.true_and]
  rw [extendCode, hblank, trim, trimStart_append_of_blank h, ← trim, extendCode]

theorem extendCode_blank_right {blanks : List Char} (h : allBlank blanks = true)
    (code line : List Char) : extendCode code (line ++ blanks) = extendCode code line := by
  have hblank : allBlank (line ++ blanks) = allBlank line := by
    rw [allBlank_append, h, Bool.and_true]
  rw [extendCode, hblank, trim_append_of_blank h, extendCode]

/-- Code with a gap in it is that of two lines. -/
theorem trim_gap {gap left : List Char} (hgap : IsGap gap) (hleft : allBlank left = false)
    (right : List Char) :
    Respaced (trim (left ++ (gap ++ right))) (extendCode (trim left) right) := by
  rw [extendCode]
  split
  · rename_i hright
    have hblank : allBlank (gap ++ right) = true := by
      rw [allBlank_append, hgap.2, hright]
      rfl
    rw [trim_append_of_blank hblank]
    exact .refl _
  · rename_i hright
    obtain ⟨front, c, blanks, rfl, hblanks, hc⟩ := exists_last_visible hleft
    obtain ⟨blanks', d, rest, rfl, hblanks', hd⟩ := exists_first_visible (by simpa using hright)
    have hnil : trimEnd blanks = [] := trimEnd_append_of_blank hblanks []
    have hnil' : trimStart blanks' = [] := List.dropWhile_eq_nil_iff.2 (List.all_eq_true.1 hblanks')
    have hwhole : trim ((front ++ c :: blanks) ++ (gap ++ (blanks' ++ d :: rest))) =
        (trimStart front ++ [c]) ++ ((blanks ++ gap ++ blanks') ++ d :: trimEnd rest) := by
      have hassoc : (front ++ c :: blanks) ++ (gap ++ (blanks' ++ d :: rest)) =
          (front ++ c :: (blanks ++ gap ++ blanks')) ++ d :: rest := by simp
      rw [hassoc, trim_append_cons hd, trimStart_append_cons hc]
      simp
    rw [hwhole, trim_append_cons hc, trim_append_cons hd, hnil, hnil']
    refine Respaced.append_left ?_ _
    have hlong : IsGap (blanks ++ gap ++ blanks') := by
      refine ⟨by simp [hgap.1], ?_⟩
      rw [allBlank_append, allBlank_append, hblanks, hgap.2, hblanks']
      rfl
    exact (respaced_gap hlong ⟨by simp, rfl⟩ : Respaced _ [' ']).append _

theorem extendCode_gap {gap : List Char} (hgap : IsGap gap) (code left right : List Char) :
    Respaced (extendCode code (left ++ (gap ++ right)))
      (extendCode (extendCode code left) right) := by
  cases hleft : allBlank left with
  | true =>
    have hblank : allBlank (left ++ gap) = true := by
      rw [allBlank_append, hleft, hgap.2]
      rfl
    rw [← List.append_assoc, extendCode_blank_left hblank, extendCode.eq_def code left,
      if_pos hleft]
    exact .refl _
  | false =>
    have hwhole : allBlank (left ++ (gap ++ right)) = false := allBlank_append_left hleft _
    have hsplit : code ++ ' ' :: trim left = (code ++ [' ']) ++ trim left := by simp
    have hsplit' : code ++ ' ' :: trim (left ++ (gap ++ right)) =
        (code ++ [' ']) ++ trim (left ++ (gap ++ right)) := by simp
    rw [extendCode, hwhole, extendCode.eq_def code left, hleft]
    simp only [Bool.false_eq_true, ↓reduceIte]
    rw [hsplit, hsplit', extendCode_append]
    exact (trim_gap hgap hleft right).append_left _

end Text

/-! ### Statements -/

/-- The statements differ in runs of blanks in their code, and in the lines they are on. -/
structure Statement.Respaced (statement other : Statement) : Prop where
  indent : other.indent = statement.indent
  code : Text.Respaced statement.code other.code

theorem Statement.Respaced.squeezed_eq {statement other : Statement}
    (h : statement.Respaced other) : other.squeezed = statement.squeezed := by
  rw [squeezed, squeezed, h.indent, h.code.squeeze_eq]

theorem extend_some (statement : Statement) (line : MaskedLine) :
    Statement.extend (some statement) line =
      some { statement with
        endLine := line.number
        code := Text.extendCode statement.code line.code } := by
  have hblank : (Text.trim line.code).isEmpty = Text.allBlank line.code := by
    rw [Bool.eq_iff_iff, List.isEmpty_iff, Text.trim_eq_nil]
  simp only [Statement.extend, hblank, Text.extendCode]

theorem extend_respaced {current current' : Option Statement} {line line' : MaskedLine}
    (h : Option.Rel Statement.Respaced current current') (hline : line.Alike line') :
    Option.Rel Statement.Respaced (Statement.extend current line)
      (Statement.extend current' line') := by
  obtain ⟨hraw, hcode, -⟩ := hline
  cases h with
  | none =>
    cases hblank : Text.allBlank line.code with
    | true =>
      rw [extend_eq_none.2 ⟨rfl, hblank⟩, extend_eq_none.2 ⟨rfl, hcode ▸ hblank⟩]
      exact .none
    | false =>
      rw [extend_none line hblank, extend_none line' (hcode ▸ hblank), hraw, hcode]
      exact .some ⟨rfl, .refl _⟩
  | some h =>
    rw [extend_some, extend_some, hcode]
    refine .some ⟨h.indent, ?_⟩
    simp only [Text.extendCode]
    split
    · exact h.code
    · exact h.code.append _

/-- The statements from a line on, if those that are open after it differ in blanks only. -/
theorem joinFrom_cons_respaced {current current' : Option Statement} {line line' : MaskedLine}
    {rest rest' : List MaskedLine}
    (hextend : Option.Rel Statement.Respaced (Statement.extend current line)
      (Statement.extend current' line'))
    (hcontinues : line'.continues = line.continues)
    (hrest : ∀ current current', Option.Rel Statement.Respaced current current' →
      List.Forall₂ Statement.Respaced (joinFrom current rest) (joinFrom current' rest')) :
    List.Forall₂ Statement.Respaced (joinFrom current (line :: rest))
      (joinFrom current' (line' :: rest')) := by
  rw [joinFrom, joinFrom, hcontinues]
  generalize Statement.extend current line = next at hextend
  generalize Statement.extend current' line' = next' at hextend
  cases hextend with
  | none => exact hrest none none .none
  | @some statement statement' h =>
    cases line.continues with
    | true => exact hrest _ _ (.some h)
    | false => exact .cons h (hrest none none .none)

theorem joinFrom_respaced {lines lines' : List MaskedLine}
    (hlines : List.Forall₂ MaskedLine.Alike lines lines') (current current' : Option Statement)
    (h : Option.Rel Statement.Respaced current current') :
    List.Forall₂ Statement.Respaced (joinFrom current lines) (joinFrom current' lines') := by
  induction hlines generalizing current current' with
  | nil => exact .nil
  | cons hline _ ih => exact joinFrom_cons_respaced (extend_respaced h hline) hline.2.2 ih

section Extend

variable {current : Option Statement} {line line' : MaskedLine} {left right blanks gap : List Char}

/-- A line is changed in a gap. -/
theorem extend_gap (hblanks : Text.IsGap blanks) (hgap : Text.IsGap gap)
    (hline : line.code = left ++ (blanks ++ right)) (hline' : line'.code = left ++ (gap ++ right))
    (hstart : current = none →
      Text.allBlank left = false ∧ indentWidth line'.raw = indentWidth line.raw) :
    Option.Rel Statement.Respaced (Statement.extend current line)
      (Statement.extend current line') := by
  cases current with
  | none =>
    obtain ⟨hleft, hindent⟩ := hstart rfl
    have hvisible := Text.allBlank_append_left hleft
    rw [extend_none line (hline ▸ hvisible _), extend_none line' (hline' ▸ hvisible _)]
    refine .some ⟨hindent, ?_⟩
    simp only [hline, hline']
    exact (Text.trim_gap hblanks hleft right).trans (Text.trim_gap hgap hleft right).symm
  | some statement =>
    rw [extend_some, extend_some, hline, hline']
    exact .some ⟨rfl, (Text.extendCode_gap hblanks _ left right).trans
      (Text.extendCode_gap hgap _ left right).symm⟩

/-- Two lines are joined with a gap between them. -/
theorem extend_lines {last : MaskedLine} {statement : Statement}
    (hblanks : Text.allBlank blanks = true) (hgap : Text.IsGap gap)
    (hline : line.code = left ++ blanks) (hextend : Statement.extend current line = some statement)
    (hlast : ∀ code, Text.extendCode code last.code = Text.extendCode code right)
    (hline' : line'.code = left ++ (gap ++ right)) (endLine : Nat)
    (hstart : current = none →
      Text.allBlank left = false ∧ indentWidth line'.raw = indentWidth line.raw) :
    Option.Rel Statement.Respaced (Statement.extend (some { statement with endLine }) last)
      (Statement.extend current line') := by
  rw [extend_some, hlast]
  cases current with
  | none =>
    obtain ⟨hleft, hindent⟩ := hstart rfl
    have hvisible := Text.allBlank_append_left hleft
    rw [extend_none line (hline ▸ hvisible _), Option.some.injEq] at hextend
    rw [extend_none line' (hline' ▸ hvisible _), ← hextend]
    refine .some ⟨hindent, ?_⟩
    simp only [hline, hline', Text.trim_append_of_blank hblanks]
    exact (Text.trim_gap hgap hleft right).symm
  | some before =>
    rw [extend_some, Option.some.injEq] at hextend
    rw [extend_some, ← hextend, hline, hline']
    simp only [Text.extendCode_blank_right hblanks]
    exact .some ⟨rfl, (Text.extendCode_gap hgap _ left right).symm⟩

end Extend

/-! ### The run and the gap -/

/-- A run of blanks, and the gap that takes its place. The run starts after `left`, goes on over the
lines `more` and ends before `right`. -/
structure Respacing where
  name : String
  above : List (List Char)
  left : List Char
  blanks : List Char
  more : List (List Char)
  right : List Char
  below : List (List Char)
  gap : List Char
  allBlank : Text.allBlank blanks = true ∧ ∀ line ∈ more, Text.allBlank line = true
  nonempty : more = [] → blanks ≠ []
  isGap : Text.IsGap gap

/-- Lines with a run of blanks between two texts. -/
def spread (left blanks right : List Char) : List (List Char) → List (List Char)
  | [] => [left ++ (blanks ++ right)]
  | next :: more => (left ++ blanks) :: spread [] next right more

namespace Respacing

/-- The text with the run. -/
def before (r : Respacing) : SourceUnit :=
  ⟨r.name, r.above ++ (spread r.left r.blanks r.right r.more ++ r.below)⟩

/-- The text with the gap. -/
def after (r : Respacing) : SourceUnit :=
  ⟨r.name, r.above ++ (r.left ++ (r.gap ++ r.right)) :: r.below⟩

/-- The run stands in the code of a statement. The lines above are masked up to it, and the text
before it on its line ends in code and has some, unless the line belongs to a statement from above;
brackets are open if the run goes on over the next lines. -/
structure Reached (r : Respacing) (first : List MaskedLine) (carry : Carry)
    (scanned : ScannedLine) : Prop where
  above : Masks 1 .empty r.above first carry
  left : scanLine (1 + r.above.length) carry.string carry.brackets r.left = .ok scanned
  inCode : scanned.InCode
  inside : Text.allBlank scanned.code = false ∨ (openAfter none first).isSome = true
  brackets : r.more ≠ [] → scanned.carry.brackets ≠ []

end Respacing

/-! ### Masking the run -/

section Masking

variable {brackets : List OpenBracket} {left blanks right : List Char} {more : List (List Char)}
  {below : List (List Char)} {number : Nat} {masked : List MaskedLine}

/-- Blanks after a part of a line that ends in code are part of the code. -/
theorem scanLine_append_blanks {carry : Carry} (hq : carry.Quoted) {scanned : ScannedLine}
    (hscan : scanLine number carry.string carry.brackets left = .ok scanned)
    (hcode : scanned.InCode) (hblanks : Text.allBlank blanks = true)
    (hne : blanks = [] → right = []) :
    scanLine number carry.string carry.brackets (left ++ (blanks ++ right)) =
      emit (scanned.code ++ blanks) (scanLine number none scanned.carry.brackets right) := by
  rw [scanLine_append hq hscan hcode, scanLine_blanks hblanks, emit_emit]
  cases blanks with
  | nil => simp [hne rfl]
  | cons c blanks =>
    rw [Text.allBlank, List.all_cons, Bool.and_eq_true] at hblanks
    simp only [List.cons_append, List.head?_cons, Option.mem_def, Option.some.injEq,
      forall_eq']
    by_contra hquote
    rw [not_isBlank_of_isQuote (by simpa using hquote)] at hblanks
    cases hblanks.1

/-- The lines of a run that has begun belong to the open statement, and only the text after the run
adds to its code. -/
theorem joinFrom_run (hbrackets : brackets ≠ []) (hblanks : Text.allBlank blanks = true)
    (hmore : ∀ line ∈ more, Text.allBlank line = true)
    (h : maskFrom number ⟨none, brackets⟩ (spread [] blanks right more ++ below) = .ok masked) :
    ∃ n scanned last rest, right.any isUndecodable = false ∧
      scanLine n none brackets right = .ok scanned ∧ scanned.MayEnd ∧
      maskFrom (n + 1) scanned.carry below = .ok rest ∧
      (∀ code, Text.extendCode code last.code = Text.extendCode code scanned.code) ∧
      last.continues = (scanned.masked n right).continues ∧
      ∀ statement : Statement, ∃ endLine,
        joinFrom (some statement) masked =
          joinFrom (some { statement with endLine }) (last :: rest) := by
  induction more generalizing blanks number masked with
  | nil =>
    obtain ⟨line, carry, rest, hline, hrest, rfl⟩ := maskFrom_cons_eq_ok.1 h
    obtain ⟨hdecodable, scanned, hscan, hend, rfl, rfl⟩ := maskLine_eq_ok.1 hline
    rw [List.nil_append, scanLine_blanks hblanks] at hscan
    obtain ⟨inner, hinner, rfl⟩ := emit_eq_ok hscan
    rw [List.nil_append, List.any_append, Bool.or_eq_false_iff] at hdecodable
    exact ⟨number, inner, { inner with code := blanks ++ inner.code }.masked number
      ([] ++ (blanks ++ right)), rest, hdecodable.2, hinner, hend, hrest,
      fun code => Text.extendCode_blank_left hblanks code inner.code, rfl,
      fun statement => ⟨statement.endLine, rfl⟩⟩
  | cons next more ih =>
    obtain ⟨hnext, hmore⟩ := List.forall_mem_cons.1 hmore
    obtain ⟨line, carry, rest, hline, hrest, rfl⟩ := maskFrom_cons_eq_ok.1 h
    obtain ⟨-, scanned, hscan, -, rfl, rfl⟩ := maskLine_eq_ok.1 hline
    have hblank : scanLine number none brackets ([] ++ blanks) =
        .ok ⟨blanks, none, ⟨none, brackets⟩, false, false⟩ := by
      simpa [scanLine] using scanLine_blanks hblanks number brackets []
    obtain rfl := Except.ok.inj (hblank.symm.trans hscan)
    obtain ⟨n, inner, last, rest', hdecodable, hinner, hend, hbelow, hlast, hcontinues, hjoin⟩ :=
      ih hnext hmore hrest
    refine ⟨n, inner, last, rest', hdecodable, hinner, hend, hbelow, hlast, hcontinues, ?_⟩
    intro statement
    obtain ⟨endLine, hjoin⟩ := hjoin { statement with endLine := number }
    refine ⟨endLine, hjoin ▸ ?_⟩
    have hidle : Text.extendCode statement.code blanks = statement.code := by
      rw [Text.extendCode, if_pos hblanks]
    simp [joinFrom, extend_some, ScannedLine.masked, hbrackets, hidle]

/-- The line with the gap, and the lines below it, can be masked if they could with the run. -/
theorem maskFrom_gap {carry : Carry} (hq : carry.Quoted) {scanned : ScannedLine}
    (hscan : scanLine number carry.string carry.brackets left = .ok scanned)
    (hcode : scanned.InCode) {gap : List Char} (hgap : Text.IsGap gap)
    (hleft : left.any isUndecodable = false) (hright : right.any isUndecodable = false)
    {n : Nat} {inner : ScannedLine}
    (hinner : scanLine n none scanned.carry.brackets right = .ok inner) (hend : inner.MayEnd)
    {rest : List MaskedLine} (hbelow : maskFrom (n + 1) inner.carry below = .ok rest) :
    ∃ line rest', maskFrom number carry ((left ++ (gap ++ right)) :: below) = .ok (line :: rest') ∧
      line.code = scanned.code ++ (gap ++ inner.code) ∧ line.raw = left ++ (gap ++ right) ∧
      line.continues = (inner.masked n right).continues ∧
      List.Forall₂ MaskedLine.Alike rest rest' := by
  obtain ⟨other, hother, halike⟩ :=
    @scanLine_alike n ⟨none, scanned.carry.brackets⟩ _ ⟨rfl, rfl⟩ right inner hinner number
  obtain ⟨rest', hrest', hlines⟩ := maskFrom_alike halike.carry hbelow (number + 1)
  obtain ⟨-, -, hcontinues⟩ := halike.masked n number right
  have hline := @scanLine_append_blanks _ _ right _ _ hq _ hscan hcode hgap.2
    fun hnil => absurd hnil hgap.1
  have hblank : gap.any isUndecodable = false := List.any_eq_false.2 fun c hc => by
    simp [not_isUndecodable_of_isBlank (List.all_eq_true.1 hgap.2 c hc)]
  refine ⟨{ other with code := scanned.code ++ gap ++ other.code }.masked number _, rest', ?_, ?_,
    rfl, hcontinues, hlines⟩
  · refine maskFrom_cons_eq_ok.2 ⟨_, other.carry, rest', maskLine_eq_ok.2 ⟨?_,
      { other with code := scanned.code ++ gap ++ other.code }, ?_, halike.mayEnd hend, rfl, rfl⟩,
      hrest', rfl⟩
    · simp [hleft, hblank, hright]
    · rw [hline, hother]
      rfl
  · simp [ScannedLine.masked, halike.code]

end Masking

/-- The indentation of a line on which a statement starts is that of the text before the run. -/
theorem indentWidth_left {number : Nat} {left : List Char} {scanned : ScannedLine}
    (hscan : scanLine number none [] left = .ok scanned)
    (hcode : Text.allBlank scanned.code = false) (rest rest' : List Char) :
    indentWidth (left ++ rest) = indentWidth (left ++ rest') := by
  have hleft : Text.allBlank left = false := by
    by_contra hblank
    rw [Bool.not_eq_false] at hblank
    have hblanks := scanLine_blanks hblank number [] []
    rw [List.append_nil, hscan, scanLine, emit_ok, Except.ok.injEq] at hblanks
    rw [hblanks, List.append_nil, hblank] at hcode
    cases hcode
  obtain ⟨blanks, c, more, rfl, -, hc⟩ := Text.exists_first_visible hleft
  rw [indentWidth, indentWidth, List.append_assoc, List.append_assoc, List.cons_append,
    List.cons_append, indentFrom_append_cons hc, indentFrom_append_cons hc _ _ (more ++ rest')]

/-- From the line of the run on, there are the same statements with the gap, up to blanks. -/
def Respacing.Joins (r : Respacing) (first : List MaskedLine) (carry : Carry)
    (second : List MaskedLine) : Prop :=
  ∃ second', maskFrom (1 + r.above.length) carry ((r.left ++ (r.gap ++ r.right)) :: r.below) =
      .ok second' ∧
    List.Forall₂ Statement.Respaced (joinFrom (openAfter none first) second)
      (joinFrom (openAfter none first) second')

namespace Respacing.Reached

variable {r : Respacing} {first : List MaskedLine} {carry : Carry} {scanned : ScannedLine}

theorem holds (h : r.Reached first carry scanned) : Holds (openAfter none first) carry :=
  h.above.holds holds_empty

/-- If a statement starts on the line of the run, it does so before the run. -/
theorem start (h : r.Reached first carry scanned) (hnone : openAfter none first = none) :
    Text.allBlank scanned.code = false ∧
      ∀ rest rest', indentWidth (r.left ++ rest) = indentWidth (r.left ++ rest') := by
  have hinside := h.inside
  have hholds := h.holds
  have hscan := h.left
  rw [hnone] at hinside hholds
  have hvisible : Text.allBlank scanned.code = false := by simpa using hinside
  rw [hholds.eq_empty] at hscan
  exact ⟨hvisible, indentWidth_left hscan hvisible⟩

/-- A run within a line. -/
theorem joins_line (h : r.Reached first carry scanned) (hmore : r.more = [])
    {second : List MaskedLine}
    (hsecond : maskFrom (1 + r.above.length) carry
      (spread r.left r.blanks r.right r.more ++ r.below) = .ok second) :
    r.Joins first carry second := by
  have hne := r.nonempty hmore
  have hblanks := r.allBlank.1
  rw [hmore] at hsecond
  obtain ⟨line, carry', rest, hline, hrest, rfl⟩ := maskFrom_cons_eq_ok.1 hsecond
  obtain ⟨hdecodable, whole, hwhole, hend, rfl, rfl⟩ := maskLine_eq_ok.1 hline
  rw [scanLine_append_blanks h.holds.quoted h.left h.inCode hblanks fun hnil => absurd hnil hne]
    at hwhole
  obtain ⟨inner, hinner, rfl⟩ := emit_eq_ok hwhole
  simp only [List.any_append, Bool.or_eq_false_iff] at hdecodable
  obtain ⟨line', rest', hnew, hcode', hraw, hcontinues, halike⟩ := maskFrom_gap h.holds.quoted
    h.left h.inCode r.isGap hdecodable.1 hdecodable.2.2 hinner hend hrest
  refine ⟨line' :: rest', hnew, joinFrom_cons_respaced ?_ hcontinues (joinFrom_respaced halike)⟩
  refine extend_gap ⟨hne, hblanks⟩ r.isGap (List.append_assoc ..) hcode' fun hnone => ?_
  obtain ⟨hvisible, hindent⟩ := h.start hnone
  exact ⟨hvisible, hraw ▸ hindent _ _⟩

/-- The first line of a run over several lines leaves its statement open. -/
theorem exists_open (h : r.Reached first carry scanned) (hmore : r.more ≠ []) {line : MaskedLine}
    {carry' : Carry}
    (hline : maskLine (1 + r.above.length) carry (r.left ++ r.blanks) = .ok (line, carry')) :
    carry' = ⟨none, scanned.carry.brackets⟩ ∧ line.code = scanned.code ++ r.blanks ∧
      line.raw = r.left ++ r.blanks ∧ line.continues = true ∧
      ∃ statement, Statement.extend (openAfter none first) line = some statement := by
  obtain ⟨-, whole, hwhole, -, rfl, rfl⟩ := maskLine_eq_ok.1 hline
  have hfront : scanLine (1 + r.above.length) carry.string carry.brackets (r.left ++ r.blanks) =
      .ok ⟨scanned.code ++ r.blanks, none, ⟨none, scanned.carry.brackets⟩, false, false⟩ := by
    simpa [scanLine] using @scanLine_append_blanks r.left r.blanks [] _ _ h.holds.quoted _ h.left
      h.inCode r.allBlank.1 fun _ => rfl
  obtain rfl := Except.ok.inj (hfront.symm.trans hwhole)
  refine ⟨rfl, rfl, rfl, by simp [ScannedLine.masked, h.brackets hmore], ?_⟩
  refine Option.ne_none_iff_exists'.1 fun hnil => ?_
  obtain ⟨hnone, hblank⟩ := extend_eq_none.1 hnil
  rw [ScannedLine.masked, Text.allBlank_append_left (h.start hnone).1] at hblank
  cases hblank

/-- A run over several lines. -/
theorem joins_lines (h : r.Reached first carry scanned) {next : List Char}
    {more : List (List Char)} (hmore : r.more = next :: more) {second : List MaskedLine}
    (hsecond : maskFrom (1 + r.above.length) carry
      (spread r.left r.blanks r.right r.more ++ r.below) = .ok second) :
    r.Joins first carry second := by
  obtain ⟨hblanks, hlines⟩ := r.allBlank
  have hne : r.more ≠ [] := by simp [hmore]
  rw [hmore] at hsecond hlines
  obtain ⟨hnext, hlines⟩ := List.forall_mem_cons.1 hlines
  obtain ⟨line, carry', tail, hline, htail, rfl⟩ := maskFrom_cons_eq_ok.1 hsecond
  have hdecodable := (maskLine_eq_ok.1 hline).1
  rw [List.any_append, Bool.or_eq_false_iff] at hdecodable
  obtain ⟨rfl, hcode, hraw, hopen, statement, hextend⟩ := h.exists_open hne hline
  obtain ⟨n, inner, last, rest, hright, hinner, hend, hbelow, hlast, hcontinues, hjoin⟩ :=
    joinFrom_run (h.brackets hne) hnext hlines htail
  obtain ⟨line', rest', hnew, hcode', hraw', hcontinues', halike⟩ := maskFrom_gap h.holds.quoted
    h.left h.inCode r.isGap hdecodable.1 hright hinner hend hbelow
  obtain ⟨endLine, hjoin⟩ := hjoin statement
  refine ⟨line' :: rest', hnew, ?_⟩
  rw [joinFrom, hextend, hopen]
  simp only [↓reduceIte, hjoin]
  refine joinFrom_cons_respaced ?_ (hcontinues'.trans hcontinues.symm) (joinFrom_respaced halike)
  refine extend_lines hblanks r.isGap hcode hextend hlast hcode' endLine fun hnone => ?_
  obtain ⟨hvisible, hindent⟩ := h.start hnone
  exact ⟨hvisible, by rw [hraw, hraw']; exact hindent _ _⟩

/-- The statements with the gap are those with the run, up to blanks. -/
theorem joinLines_respaced (h : r.Reached first carry scanned) {masked : List MaskedLine}
    (hmask : mask r.before = .ok masked) :
    ∃ masked', mask r.after = .ok masked' ∧
      List.Forall₂ Statement.Respaced (joinLines masked) (joinLines masked') := by
  obtain ⟨first', carry', second, hfirst, hsecond, rfl⟩ := maskFrom_append_eq_ok.1 hmask
  obtain ⟨rfl, rfl⟩ := h.above.unique hfirst
  have hjoins : r.Joins first carry second := by
    cases hmore : r.more with
    | nil => exact h.joins_line hmore hsecond
    | cons next more => exact h.joins_lines hmore hsecond
  obtain ⟨second', hsecond', hjoin⟩ := hjoins
  refine ⟨first ++ second', maskFrom_append_eq_ok.2 ⟨first, carry, second', hfirst, hsecond', rfl⟩,
    ?_⟩
  rw [joinLines, joinLines, joinFrom_append, joinFrom_append]
  exact List.rel_append (List.forall₂_same.2 fun s _ => ⟨rfl, .refl _⟩) hjoin

end Respacing.Reached

/-! ### The outline -/

theorem map_squeezed_eq {statements others : List Statement}
    (h : List.Forall₂ Statement.Respaced statements others) :
    others.map Statement.squeezed = statements.map Statement.squeezed := by
  induction h with
  | nil => rfl
  | cons h _ ih => rw [List.map_cons, List.map_cons, h.squeezed_eq, ih]

section Outline

variable {unit other : SourceUnit} {masked masked' : List MaskedLine} {outline outline' : Outline}

/-- The names and sorts of the elements can be read from the squeezed statements. -/
theorem named_elements (hmask : mask unit = .ok masked)
    (houtline : Outline.ofUnit unit = .ok outline) :
    outline.elements.toList.map (fun e => e.signature.named) =
      ((joinLines masked).map Statement.squeezed).filterMap fun statement =>
        statement.signature?.map Signature.named := by
  have hsignatures := congrArg (List.map fun p => p.2.named) (Outline.signatures_eq hmask houtline)
  rw [List.map_map, List.map_filterMap] at hsignatures
  rw [List.filterMap_map]
  refine hsignatures.trans (List.filterMap_congr fun statement _ => ?_)
  rw [Option.map_map, Function.comp_apply, statement.definition_squeezed.2]
  rfl

/-- The functions of an outline, from the names and sorts of its elements. -/
theorem functions_eq (outline : Outline) :
    outline.functions.map (fun function => (function.1.name, function.2)) =
      ((outline.elements.toList.map fun e => e.signature.named).zipIdx.filter
        fun p => p.1.2 = .function).map fun p => (p.1.1, p.2) := by
  rw [List.zipIdx_map, List.filter_map, List.map_map]
  rfl

/-- The places and decisions of lines, from the squeezed statements. -/
theorem paths_lines (hmask : mask unit = .ok masked)
    (houtline : Outline.ofUnit unit = .ok outline) :
    outline.lines.toList.map (fun line => (line.owner, line.paths)) =
      ((outline.lines.map LogicalLine.bare).toList.zip
        ((joinLines masked).map Statement.squeezed)).map
          fun p => (p.1.owner, pathsOf p.1.keyword p.2.code) := by
  rw [← statement_outline hmask houtline, List.map_map, Array.toList_map, List.zip_map',
    List.map_map]
  refine List.map_congr_left fun line _ => ?_
  rw [Function.comp_apply]
  exact congrArg (line.owner, ·) (pathsOf_squeeze line.keyword line.code).symm

theorem sum_paths_ownLines (outline : Outline) (k : Nat) :
    ((outline.ownLines k).map LogicalLine.paths).sum =
      (((outline.lines.toList.map fun line => (line.owner, line.paths)).filter
        fun p => p.1 = some k).map Prod.snd).sum := by
  rw [List.filter_map, List.map_map]
  rfl

end Outline

/-- A run of blanks in the code of a statement can be replaced by another gap. The text is accepted
as before, with the same functions, and each function has the same decisions. Its complexity counts
these, and the wide loops among its statements once more. -/
theorem complexity_of_respaced {r : Respacing} {first : List MaskedLine} {carry : Carry}
    {scanned : ScannedLine} (h : r.Reached first carry scanned) {outline : Outline}
    (houtline : Outline.ofUnit r.before = .ok outline) :
    ∃ outline', Outline.ofUnit r.after = .ok outline' ∧
      outline'.functions.map (fun function => (function.1.name, function.2)) =
        outline.functions.map (fun function => (function.1.name, function.2)) ∧
      (∀ line, line ∈ outline.lines ∨ line ∈ outline'.lines →
        line.decisions = line.paths + if line.isWideLoop then 1 else 0) ∧
      ∀ k,
        complexity (outline.ownLines k) =
          1 + ((outline.ownLines k).map LogicalLine.paths).sum +
            (outline.ownLines k).countP LogicalLine.isWideLoop ∧
        complexity (outline'.ownLines k) =
          1 + ((outline.ownLines k).map LogicalLine.paths).sum +
            (outline'.ownLines k).countP LogicalLine.isWideLoop := by
  obtain ⟨masked, -, hmask, -⟩ := Outline.ofUnit_eq_ok.1 houtline
  obtain ⟨masked', hmask', hrespaced⟩ := h.joinLines_respaced hmask
  have hsqueezed := map_squeezed_eq hrespaced
  obtain ⟨outline', houtline', hbare⟩ := Outline.ofUnit_alike hmask houtline hmask'
    (hrespaced.imp fun _ _ h => Statement.alike_of_squeezed h.squeezed_eq)
  have hread := read?_of_outline houtline
  have hread' := read?_of_outline houtline'
  refine ⟨outline', houtline', ?_, ?_, fun k => ⟨?_, ?_⟩⟩
  · rw [functions_eq, functions_eq, named_elements hmask houtline, named_elements hmask' houtline',
      hsqueezed]
  · rintro line (hline | hline)
    · exact LogicalLine.decisions_eq (hread line hline)
    · exact LogicalLine.decisions_eq (hread' line hline)
  · exact complexity_eq fun line hline =>
      hread line (Array.mem_toList_iff.1 (List.mem_of_mem_filter hline))
  · have hpaths : ((outline'.ownLines k).map LogicalLine.paths).sum =
        ((outline.ownLines k).map LogicalLine.paths).sum := by
      rw [sum_paths_ownLines, sum_paths_ownLines, paths_lines hmask houtline,
        paths_lines hmask' houtline', hbare, hsqueezed]
    rw [← hpaths]
    exact complexity_eq fun line hline =>
      hread' line (Array.mem_toList_iff.1 (List.mem_of_mem_filter hline))

/-- A loop in an asynchronous function, with one blank between its words and then with three. -/
def wideLoop : Respacing where
  name := "loop"
  above := ["async def f():".toList]
  left := "    async".toList
  blanks := [' ']
  more := []
  right := "for x in y:".toList
  below := ["        pass".toList]
  gap := [' ', ' ', ' ']
  allBlank := ⟨rfl, by simp⟩
  nonempty := by simp
  isGap := ⟨by simp, rfl⟩

theorem wideLoop_counted_twice :
    ∃ first carry scanned outline outline', wideLoop.Reached first carry scanned ∧
      Outline.ofUnit wideLoop.before = .ok outline ∧
      Outline.ofUnit wideLoop.after = .ok outline' ∧
      complexity (outline.ownLines 0) = 2 ∧ complexity (outline'.ownLines 0) = 3 ∧
      outline'.functions.map (fun function => (function.1.name, function.2)) =
        outline.functions.map (fun function => (function.1.name, function.2)) := by
  have hline : maskLine 1 .empty "async def f():".toList =
      .ok (⟨1, "async def f():".toList, "async def f():".toList, none, false⟩, .empty) := by
    decide +kernel
  have hscan : scanLine 2 none [] "    async".toList =
      .ok ⟨"    async".toList, none, .empty, false, false⟩ := by decide +kernel
  have hreached : wideLoop.Reached [⟨1, "async def f():".toList, "async def f():".toList, none,
      false⟩] .empty ⟨"    async".toList, none, .empty, false, false⟩ :=
    ⟨.cons hline (.nil 2 .empty), hscan, ⟨rfl, rfl, rfl, rfl⟩, .inl (by decide),
      fun h => absurd rfl h⟩
  have hbefore : (Outline.ofUnit wideLoop.before).map (fun o => complexity (o.ownLines 0)) =
      .ok 2 := by decide +kernel
  have hafter : (Outline.ofUnit wideLoop.after).map (fun o => complexity (o.ownLines 0)) =
      .ok 3 := by decide +kernel
  obtain ⟨outline, houtline, htwo⟩ := ok_map_iff.1 hbefore
  obtain ⟨outline', houtline', hfunctions, -⟩ := complexity_of_respaced hreached houtline
  obtain ⟨outline₁, houtline₁, hthree⟩ := ok_map_iff.1 hafter
  obtain rfl := Except.ok.inj (houtline'.symm.trans houtline₁)
  exact ⟨_, _, _, outline, outline', hreached, houtline, houtline', htwo, hthree, hfunctions⟩

end CodeGrade
