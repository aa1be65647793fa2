import CodeGrade.Proofs.Lines
import CodeGrade.Proofs.Statements
import CodeGrade.Rule.Builtin

/-!
# What string literals and comments hold does not matter

A character of a string literal or of a comment can be replaced by another one without changing the
structure that is read from a source unit, nor what the rules say that look at the structure only.
Each character has a role, which the lexemes of its line give it; the role says by which characters
it may be replaced.

Indentation is the delicate point, as it is read from the line as it stands and not from its masked
code. A line on which a statement begins does not begin inside a literal, and what stands before
its first character of code is never hidden.

## Main definitions

* `Role`, `SourceUnit.role?`: the role of a character.
* `Role.admits`: the characters that may take the place of one in a role.
* `SourceUnit.replace`: a unit with one character replaced.
* `textRules`: the rules that look at more than the structure.
-/

namespace CodeGrade

open Lexeme (Alike)

/-- What a character is to the masking of its line: part of the code or of its punctuation, a
plain character of a string literal, or part of the text of a comment. -/
inductive Role where
  | syntactic
  | content
  | comment
  deriving DecidableEq, Repr

/-- Whether a character may take the place of one in the role. -/
def Role.admits (role : Role) (c : Char) : Bool :=
  match role with
  | syntactic => false
  | content => !isQuote c && c != '\\' && !isLineEnd c && !isUndecodable c
  | comment => !isLineEnd c && !isUndecodable c

/-- The roles of the characters of a lexeme. -/
def Lexeme.roles : Lexeme → List Role
  | content _ => [.content]
  | comment text => .syntactic :: text.map fun _ => .comment
  | l => l.text.map fun _ => .syntactic

/-- The roles of the characters of lines, the first of which has the given number, from what is
open before them. -/
def rolesFrom (number : Nat) (carry : Carry) : List (List Char) → List (List Role)
  | [] => []
  | raw :: rest =>
    (lexemes (carry.string.map (·.delimiter)) raw).flatMap Lexeme.roles ::
      match maskLine number carry raw with
      | .ok (_, carry) => rolesFrom (number + 1) carry rest
      | .error _ => []

/-- The role of character `j` of entry `i` of a unit's lines. -/
def SourceUnit.role? (unit : SourceUnit) (i j : Nat) : Option Role :=
  (rolesFrom 1 .empty unit.lines)[i]?.bind (·[j]?)

/-- The unit with one character replaced. -/
def SourceUnit.replace (unit : SourceUnit) (i j : Nat) (c : Char) : SourceUnit :=
  { unit with lines := unit.lines.modify i (·.set j c) }

/-! ### Replacing a character of a line -/

theorem Lexeme.length_roles (l : Lexeme) : l.roles.length = l.text.length := by
  cases l <;> simp [Lexeme.roles, Lexeme.text]

/-- Replacing a hidden character of a lexeme gives a lexeme alike. -/
theorem Lexeme.exists_alike {l : Lexeme} {j : Nat} {role : Role} {c : Char}
    (hrole : l.roles[j]? = some role) (hc : role.admits c = true) :
    ∃ l', Alike l l' ∧ l'.text = l.text.set j c := by
  cases l with
  | content old =>
    obtain ⟨rfl, rfl⟩ : j = 0 ∧ role = .content := by grind [Lexeme.roles]
    simp only [Role.admits, Bool.and_eq_true, Bool.not_eq_true', bne_iff_ne, ne_eq] at hc
    exact ⟨.content c, .content old hc.1.1.1 hc.1.1.2, rfl⟩
  | comment text =>
    cases j with
    | zero =>
      obtain rfl : role = .syntactic := by grind [Lexeme.roles]
      simp [Role.admits] at hc
    | succ j => exact ⟨.comment (text.set j c), .comment text _, rfl⟩
  | _ =>
    obtain rfl : role = .syntactic := by grind [Lexeme.roles]
    simp [Role.admits] at hc

/-- Replacing a hidden character of a line gives lexemes alike. -/
theorem exists_alike_flatMap {ls : List Lexeme} {j : Nat} {role : Role} {c : Char}
    (hrole : (ls.flatMap Lexeme.roles)[j]? = some role) (hc : role.admits c = true) :
    ∃ ls', List.Forall₂ Alike ls ls' ∧
      ls'.flatMap Lexeme.text = (ls.flatMap Lexeme.text).set j c := by
  induction ls generalizing j with
  | nil => simp at hrole
  | cons l ls ih =>
    simp only [List.flatMap_cons] at hrole ⊢
    by_cases hj : j < l.text.length
    · rw [List.getElem?_append_left (by rwa [l.length_roles])] at hrole
      obtain ⟨l', hl, htext⟩ := l.exists_alike hrole hc
      refine ⟨l' :: ls, .cons hl (List.forall₂_same.2 fun l _ => .refl l), ?_⟩
      rw [List.flatMap_cons, htext, List.set_append_left _ _ hj]
    · rw [List.getElem?_append_right (by rw [l.length_roles]; omega), l.length_roles] at hrole
      obtain ⟨ls', hls, htext⟩ := ih hrole
      refine ⟨l :: ls', .cons (.refl l) hls, ?_⟩
      rw [List.flatMap_cons, htext, List.set_append_right _ _ (by omega)]

/-- The lexemes of a line with a hidden character replaced. -/
theorem lexemes_set {literal : Option Delimiter} {raw : List Char} {j : Nat} {role : Role}
    {c : Char} (hq : ∀ d ∈ literal, isQuote d.mark = true)
    (hrole : ((lexemes literal raw).flatMap Lexeme.roles)[j]? = some role)
    (hc : role.admits c = true) :
    List.Forall₂ Alike (lexemes literal raw) (lexemes literal (raw.set j c)) := by
  obtain ⟨ls, hls, htext⟩ := exists_alike_flatMap hrole hc
  rw [text_lexemes] at htext
  rwa [← htext, lexemes_of_alike hq hls]

theorem Role.not_undecodable_of_admits {role : Role} {c : Char} (h : role.admits c = true) :
    isUndecodable c = false := by
  cases role <;> simp_all [Role.admits]

theorem Role.not_lineEnd_of_admits {role : Role} {c : Char} (h : role.admits c = true) :
    isLineEnd c = false := by
  cases role <;> simp_all [Role.admits]

theorem ScannedLine.eq_of_uncommented {a b : ScannedLine} (h : a.uncommented = b.uncommented) :
    a.code = b.code ∧ a.carry = b.carry ∧ a.escaped = b.escaped ∧ a.joined = b.joined := by
  simp only [uncommented, ScannedLine.mk.injEq, true_and] at h
  exact h

/-- A line with a hidden character replaced is masked like the line itself. -/
theorem maskLine_set {number : Nat} {carry carry' : Carry} {raw : List Char} {line : MaskedLine}
    (hline : maskLine number carry raw = .ok (line, carry'))
    {j : Nat} {c : Char} (hc : isUndecodable c = false)
    (hlexemes : List.Forall₂ Alike (lexemes (carry.string.map (·.delimiter)) raw)
      (lexemes (carry.string.map (·.delimiter)) (raw.set j c))) :
    ∃ line', maskLine number carry (raw.set j c) = .ok (line', carry') ∧
      line'.number = line.number ∧ line'.raw = raw.set j c ∧ line'.code = line.code ∧
      line'.continues = line.continues := by
  obtain ⟨hraw, scanned, hscan, hend, rfl, rfl⟩ := maskLine_eq_ok.1 hline
  have hsame := interpret_of_alike number hlexemes carry.string carry.brackets
  rw [← scanLine_eq_interpret, ← scanLine_eq_interpret, hscan] at hsame
  cases hscan' : scanLine number carry.string carry.brackets (raw.set j c) with
  | error fault => simp [hscan', Except.map] at hsame
  | ok scanned' =>
    rw [hscan'] at hsame
    obtain ⟨hcode, hcarry, hescaped, hjoined⟩ :=
      ScannedLine.eq_of_uncommented (Except.ok.inj hsame)
    have hraw' : (raw.set j c).any isUndecodable = false := by
      simp only [List.any_eq_false] at hraw ⊢
      intro x hx
      rcases List.mem_or_eq_of_mem_set hx with hx | rfl
      · exact hraw x hx
      · simp [hc]
    refine ⟨scanned'.masked number (raw.set j c),
      maskLine_eq_ok.2 ⟨hraw', scanned', hscan', ?_, rfl, hcarry.symm⟩, rfl, rfl, hcode, ?_⟩
    · intro literal hl
      rw [hescaped]
      exact hend literal (hcarry ▸ hl)
    · simp [ScannedLine.masked, hcarry, hjoined]

/-! ### Indentation -/

/-- Outside literals no lexeme is a literal's character. -/
theorem lexemes_none_ne_content (raw : List Char) (c : Char) (ls : List Lexeme) :
    lexemes none raw ≠ .content c :: ls := by
  cases raw with
  | nil => simp [lexemes.eq_1]
  | cons first rest =>
    rw [lexemes.eq_def]
    grind

/-- The first character outside literals is not hidden. -/
theorem head_of_alike {c : Char} {rest : List Char} {ls : List Lexeme}
    (h : List.Forall₂ Alike (lexemes none (c :: rest)) ls) :
    ∃ more, ls.flatMap Lexeme.text = c :: more := by
  have htext := text_lexemes none (c :: rest)
  have hcontent := lexemes_none_ne_content (c :: rest)
  generalize lexemes none (c :: rest) = original at h htext hcontent
  cases h with
  | nil => simp at htext
  | @cons l l' _ ls' head tail =>
    cases head with
    | refl =>
      obtain ⟨first, text, hl⟩ := List.exists_cons_of_ne_nil l.text_ne_nil
      simp only [List.flatMap_cons, hl, List.cons_append, List.cons.injEq] at htext
      exact ⟨text ++ ls'.flatMap Lexeme.text, by simp [hl, htext.1]⟩
    | content old => exact absurd rfl (hcontent old _)
    | comment text text' =>
      simp only [List.flatMap_cons, Lexeme.text, List.cons_append, List.cons.injEq] at htext
      exact ⟨text' ++ ls'.flatMap Lexeme.text, by simpa [Lexeme.text] using htext.1⟩

/-- The indentation of a line that does not begin inside a literal is not hidden. -/
theorem indentFrom_of_alike {raw raw' : List Char} (width : Nat)
    (h : List.Forall₂ Alike (lexemes none raw) (lexemes none raw')) :
    indentFrom width raw' = indentFrom width raw := by
  induction raw generalizing raw' width with
  | nil =>
    rw [lexemes_eq_nil.2 rfl, List.forall₂_nil_left_iff, lexemes_eq_nil] at h
    rw [h]
  | cons c rest ih =>
    obtain ⟨rest', htext⟩ := head_of_alike h
    rw [text_lexemes] at htext
    subst htext
    by_cases hblank : c = ' ' ∨ c = '\t' ∨ c = '\x0c'
    · have hplain (more : List Char) :
          lexemes none (c :: more) = .plain c :: lexemes none more := by
        apply lexemes_plain <;> rcases hblank with rfl | rfl | rfl <;> simp [isQuote, apostrophe]
      rw [hplain, hplain, List.forall₂_cons] at h
      simp only [indentFrom, ih _ h.2]
    · simp only [not_or] at hblank
      simp [indentFrom, hblank]

/-! ### Joining statements -/

/-- A line continues if a literal is open after it. -/
theorem continues_of_string {number : Nat} {carry carry' : Carry} {raw : List Char}
    {line : MaskedLine} (hline : maskLine number carry raw = .ok (line, carry'))
    (hstring : carry'.string.isSome = true) : line.continues = true := by
  obtain ⟨-, scanned, -, -, rfl, rfl⟩ := maskLine_eq_ok.1 hline
  simp [ScannedLine.masked, hstring]

/-- A statement is open wherever a literal is: its delimiter is code of the statement. -/
theorem isSome_extend_of_string {number : Nat} {carry carry' : Carry} {raw : List Char}
    {line : MaskedLine} {current : Option Statement}
    (hline : maskLine number carry raw = .ok (line, carry'))
    (hcurrent : carry.string.isSome = true → current.isSome = true)
    (hstring : carry'.string.isSome = true) :
    (Statement.extend current line).isSome = true := by
  obtain ⟨-, scanned, hscan, -, rfl, rfl⟩ := maskLine_eq_ok.1 hline
  rw [scanLine_eq_interpret] at hscan
  obtain ⟨literal, hl⟩ := Option.isSome_iff_exists.1 hstring
  by_contra hnone
  obtain ⟨rfl, hblank⟩ := extend_eq_none.1 (Option.not_isSome_iff_eq_none.1 hnone)
  rcases interpret_string hscan hl with hbefore | ⟨hopen, hmark⟩
  · simp [hbefore] at hcurrent
  · have hvisible := not_isBlank_of_isQuote (isQuote_of_opening_mem hopen)
    have hcode := List.all_eq_true.1 hblank _ hmark
    simp [hvisible] at hcode

/-- Lines with a hidden character replaced are masked and joined like the lines themselves, provided
that a statement is open before them if a literal is. -/
theorem maskFrom_set {number : Nat} {carry : Carry} {lines : List (List Char)}
    {masked : List MaskedLine} (hq : carry.Quoted)
    (hmask : maskFrom number carry lines = .ok masked) {i j : Nat} {role : Role} {c : Char}
    (hrole : (rolesFrom number carry lines)[i]?.bind (·[j]?) = some role)
    (hc : role.admits c = true) :
    ∃ masked', maskFrom number carry (lines.modify i (·.set j c)) = .ok masked' ∧
      masked'.map (·.code) = masked.map (·.code) ∧
      masked'.map (·.continues) = masked.map (·.continues) ∧
      ∀ current, (carry.string.isSome = true → current.isSome = true) →
        joinFrom current masked' = joinFrom current masked := by
  induction lines generalizing number carry masked i with
  | nil => simp [rolesFrom] at hrole
  | cons raw rest ih =>
    obtain ⟨line, carry', tail, hline, htail, rfl⟩ := maskFrom_cons_eq_ok.1 hmask
    cases i with
    | zero =>
      have hlexemes := lexemes_set hq.delimiter (by simpa [rolesFrom] using hrole) hc
      obtain ⟨line', hline', hnumber, hraw, hcode, hcontinues⟩ :=
        maskLine_set hline (role.not_undecodable_of_admits hc) hlexemes
      refine ⟨line' :: tail, maskFrom_cons_eq_ok.2 ⟨line', carry', tail, hline', htail, rfl⟩,
        by simp [hcode], by simp [hcontinues], fun current hcurrent => ?_⟩
      have hextend : Statement.extend current line' = Statement.extend current line := by
        -- The line as it stands is looked at only where a statement begins.
        cases current with
        | some statement => simp [Statement.extend, hcode, hnumber]
        | none =>
          have hstring : carry.string = none := by simpa using hcurrent
          obtain ⟨-, scanned, -, -, rfl, -⟩ := maskLine_eq_ok.1 hline
          rw [hstring] at hlexemes
          have hindent : indentWidth line'.raw = indentWidth raw := by
            rw [hraw]
            exact indentFrom_of_alike 0 hlexemes
          simp [Statement.extend, hcode, hnumber, hindent, ScannedLine.masked]
      simp only [joinFrom, hextend, hcontinues]
    | succ i =>
      have hrole' : (rolesFrom (number + 1) carry' rest)[i]?.bind (·[j]?) = some role := by
        simpa [rolesFrom, hline] using hrole
      obtain ⟨tail', htail', hcode, hcontinues, hjoin⟩ := ih (hq.maskLine hline) htail hrole'
      refine ⟨line :: tail', maskFrom_cons_eq_ok.2 ⟨line, carry', tail', hline, htail', rfl⟩,
        by simp [hcode], by simp [hcontinues], fun current hcurrent => ?_⟩
      have hextend := isSome_extend_of_string hline hcurrent
      have hopen := continues_of_string hline
      simp only [joinFrom]
      cases hstatement : Statement.extend current line with
      | none => exact hjoin none (by simpa [hstatement] using hextend)
      | some statement =>
        cases hline : line.continues with
        | true => simpa using hjoin (some statement) (by simp)
        | false => simpa using hjoin none (by simpa [hline] using hopen)

/-! ### Rules that look at the structure -/

/-- The rules that look at the lines or the comments of a unit. -/
def textRules : List String :=
  ["duplicate-lines", "hardcoded-secret", "todo-comment", "line-too-long"]

/-- The context with nothing left but the structure and the limits. -/
def Context.bare (c : Context) : Context where
  unit := ⟨"", []⟩
  outline := ⟨c.outline.elements, c.outline.lines, [], .ofLines []⟩
  thresholds := c.thresholds

/-- The other rules look at the structure only. -/
theorem check_bare : ∀ rule ∈ builtinRules, rule.id ∉ textRules →
    ∀ c, rule.check c = rule.check c.bare := by
  simp only [builtinRules, sizeRules, duplicationRules, loopRules, injectionRules,
    documentationRules, practiceRules, List.cons_append, List.nil_append, List.forall_mem_cons]
  -- The rules that are left out are the sixth, the 13th, the 21st and the 23rd.
  exact ⟨fun _ _ => rfl, fun _ _ => rfl, fun _ _ => rfl, fun _ _ => rfl, fun _ _ => rfl,
    fun h => absurd (by decide) h,
    fun _ _ => rfl, fun _ _ => rfl, fun _ _ => rfl, fun _ _ => rfl,
    fun _ _ => rfl, fun _ _ => rfl,
    fun h => absurd (by decide) h,
    fun _ _ => rfl, fun _ _ => rfl, fun _ _ => rfl,
    fun _ _ => rfl, fun _ _ => rfl, fun _ _ => rfl,
    fun _ _ => rfl,
    fun h => absurd (by decide) h,
    fun _ _ => rfl, fun h => absurd (by decide) h, fun _ _ => rfl, fun _ _ => rfl,
    List.forall_mem_nil _⟩

example : (builtinRules.filter (·.id ∉ textRules)).length = 21 := by decide

/-! ### Replacing a character of a unit -/

/-- The characters that have a role are those of the lines. -/
theorem exists_char_of_role {number : Nat} {carry : Carry} {lines : List (List Char)} {i j : Nat}
    {role : Role} (hrole : (rolesFrom number carry lines)[i]?.bind (·[j]?) = some role) :
    ∃ old, lines[i]?.bind (·[j]?) = some old := by
  induction lines generalizing number carry i with
  | nil => simp [rolesFrom] at hrole
  | cons raw rest ih =>
    cases i with
    | zero =>
      have hlength : ((lexemes (carry.string.map (·.delimiter)) raw).flatMap Lexeme.roles).length =
          raw.length := by
        conv_rhs => rw [← text_lexemes (carry.string.map (·.delimiter)) raw]
        simp [List.length_flatMap, Lexeme.length_roles]
      obtain ⟨hj, -⟩ := List.getElem?_eq_some_iff.1 (by simpa [rolesFrom] using hrole)
      exact ⟨raw[j], by simp⟩
    | succ i =>
      cases hline : maskLine number carry raw with
      | error fault => simp [rolesFrom, hline] at hrole
      | ok result => exact ih (by simpa [rolesFrom, hline] using hrole)

/-- Text inside string literals and comments cannot influence the structure: with one such
character replaced a unit is still accepted, each line keeps its masked code and whether it
continues, and the elements, the logical lines and the matches of the rules that look at the
structure stay the same. In the text of the unit it is one character that is replaced. -/
theorem structure_opaque_to_hidden_text {unit : SourceUnit} {outline : Outline}
    (houtline : Outline.ofUnit unit = .ok outline) {i j : Nat} {role : Role} {c : Char}
    (hrole : unit.role? i j = some role) (hc : role.admits c = true) :
    ∃ masked masked' outline',
      mask unit = .ok masked ∧ mask (unit.replace i j c) = .ok masked' ∧
      masked'.map (·.code) = masked.map (·.code) ∧
      masked'.map (·.continues) = masked.map (·.continues) ∧
      Outline.ofUnit (unit.replace i j c) = .ok outline' ∧
      outline'.elements = outline.elements ∧ outline'.lines = outline.lines ∧
      (∀ rule ∈ builtinRules, rule.id ∉ textRules → ∀ thresholds,
        rule.check ⟨unit.replace i j c, outline', thresholds⟩ =
          rule.check ⟨unit, outline, thresholds⟩) ∧
      ∀ text, unit.lines = splitLines text → ∃ k old, text[k]? = some old ∧
        unit.lines[i]?.bind (·[j]?) = some old ∧
        (unit.replace i j c).lines = splitLines (text.set k c) := by
  obtain ⟨masked, b, hmask, hsteps, rfl⟩ := Outline.ofUnit_eq_ok.1 houtline
  obtain ⟨masked', hmask', hcode, hcontinues, hjoin⟩ :=
    maskFrom_set Carry.quoted_empty hmask hrole hc
  have hsteps' : Builder.empty.steps (joinLines masked') = .ok b := by
    rw [joinLines, hjoin none (by simp [Carry.empty])]
    exact hsteps
  refine ⟨masked, masked', _, hmask, hmask', hcode, hcontinues,
    Outline.ofUnit_eq_ok.2 ⟨masked', b, hmask', hsteps', rfl⟩, rfl, rfl, ?_, ?_⟩
  · intro rule hrule htext thresholds
    rw [check_bare rule hrule htext, check_bare rule hrule htext ⟨unit, _, _⟩]
    rfl
  · intro text htext
    obtain ⟨old, hold⟩ := exists_char_of_role hrole
    obtain ⟨k, hk, hset⟩ := splitLines_set (htext ▸ hold) (role.not_lineEnd_of_admits hc)
    exact ⟨k, old, hk, hold, by rw [hset, ← htext]; rfl⟩

/-- A literal over two lines, the second of which is indented inside the literal. -/
def indentedLiteral : SourceUnit where
  name := "indented"
  lines := [['x', '=', '"', '"', '"'], [' ', '"', '"', '"']]

theorem indentation_of_literal_opaque :
    indentedLiteral.role? 1 0 = some .content ∧ Role.content.admits '#' = true ∧
      ∃ outline outline', Outline.ofUnit indentedLiteral = .ok outline ∧
        Outline.ofUnit (indentedLiteral.replace 1 0 '#') = .ok outline' ∧
        outline'.elements = outline.elements ∧ outline'.lines = outline.lines := by
  have hrole : indentedLiteral.role? 1 0 = some .content := by decide
  have hc : Role.content.admits '#' = true := by decide
  obtain ⟨outline, houtline⟩ : ∃ outline, Outline.ofUnit indentedLiteral = .ok outline :=
    ⟨_, rfl⟩
  obtain ⟨-, -, outline', -, -, -, -, houtline', helements, hlines, -⟩ :=
    structure_opaque_to_hidden_text houtline hrole hc
  exact ⟨hrole, hc, outline, outline', houtline, houtline', helements, hlines⟩

end CodeGrade
