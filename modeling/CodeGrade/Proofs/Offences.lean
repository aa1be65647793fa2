import CodeGrade.Proofs.Balance

/-!
# Offences

A statement offends if it is a definition without a colon, a definition whose name or parameter list
is not in place, or a header that a block does not follow. Each offence is said here on the
characters of the statement and the indentation of the next one. A text that can be masked is
rejected exactly if one of its statements offends, and for the first of them, although a missing
block is noticed only when the statement after it is read.

## Main definitions

* `Statement.LacksColon`, `Statement.Malformed`, `Statement.LacksBlock`: the offences.
* `Statement.Offends`: the statement commits one of them.
* `Statement.Blamed`: the cause that is reported for a statement.
-/

namespace CodeGrade

namespace Statement

/-- The statement starts with a keyword that defines something, and no colon ends its header. -/
def LacksColon (statement : Statement) (keyword : Keyword) : Prop :=
  keyword.Opens statement.code ∧ keyword.isDefinition = true ∧ ∀ i, ¬ IsTopColon statement.code i

/-- The statement is a definition with a colon whose name or parameter list is not in place. -/
def Malformed (statement : Statement) : Prop :=
  ∃ keyword : Keyword, keyword.Opens statement.code ∧ keyword.isDefinition = true ∧
    (∃ i, IsTopColon statement.code i) ∧
    (keyword = .classKw → ∀ name, ¬ ClassForm statement.code name) ∧
    (keyword ≠ .classKw → ∀ name list, ¬ FunctionForm statement.code name list)

/-- The statement is a header with nothing after its colon, and the next statement, if any, is not
indented further. -/
def LacksBlock (statement : Statement) (next : Option Statement) : Prop :=
  ∃ (keyword : Keyword) (i : Nat), keyword.Opens statement.code ∧
    IsHeaderColon statement.code i ∧ Text.allBlank (statement.code.drop (i + 1)) = true ∧
    ∀ following ∈ next, following.indent ≤ statement.indent

/-- The statement commits an offence where it stands. -/
def Offends (statement : Statement) (next : Option Statement) : Prop :=
  (∃ keyword, statement.LacksColon keyword) ∨ statement.Malformed ∨ statement.LacksBlock next

/-- The cause for an offence of the statement. A missing block is not reported for a definition
that is malformed, too. -/
inductive Blamed (statement : Statement) (next : Option Statement) : Fault.Cause → Prop where
  | colon {keyword : Keyword} (h : statement.LacksColon keyword) :
      Blamed statement next (.missingColon keyword)
  | form (h : statement.Malformed) : Blamed statement next .malformedHeader
  | block (hform : ¬ statement.Malformed) (h : statement.LacksBlock next) :
      Blamed statement next .missingBlock

theorem offends_iff {statement : Statement} {next : Option Statement} :
    statement.Offends next ↔ ∃ cause, statement.Blamed next cause := by
  constructor
  · rintro (⟨keyword, hcolon⟩ | hform | hblock)
    · exact ⟨_, .colon hcolon⟩
    · exact ⟨_, .form hform⟩
    · by_cases hform : statement.Malformed
      · exact ⟨_, .form hform⟩
      · exact ⟨_, .block hform hblock⟩
  · rintro ⟨cause, hcolon | hform | ⟨-, hblock⟩⟩
    · exact .inl ⟨_, hcolon⟩
    · exact .inr (.inl hform)
    · exact .inr (.inr hblock)

end Statement

/-! ### Reading a header -/

/-- A class does not start like a function. -/
theorem Keyword.Opens.not_functionForm {code name list : List Char}
    (h : Keyword.classKw.Opens code) : ¬ FunctionForm code name list := by
  have hclass : code.head? = some 'c' := by
    rcases h with ⟨-, -⟩ | ⟨hsecond, -, -⟩
    · rfl
    · have := congrArg List.head? hsecond
      cases this
  rintro ⟨start, gap, blanks, params, blanks', hstart, -, -, -, -, -, rfl⟩
  rcases hstart with rfl | ⟨gap', -, rfl⟩
  · cases hclass
  · cases hclass

theorem Header.read_eq_error {statement : Statement} {fault : Fault} :
    Header.read statement = .error fault ↔
      ∃ keyword, statement.LacksColon keyword ∧
        fault = ⟨statement.startLine, .missingColon keyword⟩ := by
  simp only [Statement.LacksColon, ← Keyword.read?_eq_some, ← headerColon?_eq_none]
  unfold Header.read
  cases Keyword.read? statement.code with
  | none => simp
  | some keyword =>
    cases headerColon? statement.code with
    | some colon => simp
    | none =>
      simp only [Option.some.injEq, and_true]
      constructor
      · intro h
        split at h
        · rename_i hdefinition
          exact ⟨keyword, ⟨rfl, hdefinition⟩, (Except.error.inj h).symm⟩
        · cases h
      · rintro ⟨_, ⟨rfl, hdefinition⟩, rfl⟩
        rw [if_pos hdefinition]

/-! ### The fault of a statement -/

theorem exists_headerColon {code : List Char} {i : Nat} (h : IsTopColon code i) :
    ∃ colon, IsHeaderColon code colon := by
  cases hcolon : headerColon? code with
  | none => exact absurd h (headerColon?_eq_none.1 hcolon i)
  | some colon => exact ⟨colon, headerColon?_eq_some.1 hcolon⟩

namespace Statement

theorem malformed_iff {statement : Statement} (hcode : openBrackets [] statement.code = some []) :
    statement.Malformed ↔
      ∃ header, Header.read statement = .ok (some header) ∧ header.keyword.isDefinition = true ∧
        header.signature statement.code = .error .malformedHeader := by
  constructor
  · rintro ⟨keyword, hopens, hdefinition, ⟨i, hi⟩, hclass, hfunction⟩
    obtain ⟨colon, hcolon⟩ := exists_headerColon hi
    refine ⟨⟨keyword, colon, Text.trim (statement.code.drop (colon + 1))⟩,
      Header.read_eq_some.2 ⟨hopens, hcolon, rfl⟩, hdefinition, ?_⟩
    refine (Header.signature_eq_error hcode).2 ⟨rfl, hclass, ?_⟩
    by_cases hkeyword : keyword = .classKw
    · subst hkeyword
      exact fun name list => hopens.not_functionForm
    · exact hfunction hkeyword
  · rintro ⟨header, hread, hdefinition, hsignature⟩
    obtain ⟨hopens, hcolon, -⟩ := Header.read_eq_some.1 hread
    obtain ⟨-, hclass, hfunction⟩ := (Header.signature_eq_error hcode).1 hsignature
    exact ⟨header.keyword, hopens, hdefinition, ⟨_, hcolon.1⟩, hclass, fun _ => hfunction⟩

theorem definitionFault?_eq_some {statement : Statement}
    (hcode : openBrackets [] statement.code = some []) {header : Option Header}
    (hread : Header.read statement = .ok header) {fault : Fault} :
    statement.definitionFault? header = some fault ↔
      statement.Malformed ∧ fault = ⟨statement.startLine, .malformedHeader⟩ := by
  rw [malformed_iff hcode, definitionFault?, Option.bind_eq_some_iff]
  constructor
  · rintro ⟨definition, hdefinition, hfault⟩
    obtain ⟨rfl, hkeyword⟩ := Option.filter_eq_some_iff.1 hdefinition
    split at hfault
    · cases hfault
    · rename_i cause hcause
      obtain ⟨rfl, -⟩ := (Header.signature_eq_error hcode).1 hcause
      exact ⟨⟨definition, hread, hkeyword, hcause⟩, (Option.some.inj hfault).symm⟩
  · rintro ⟨⟨definition, hread', hkeyword, hcause⟩, rfl⟩
    obtain rfl := Except.ok.inj (hread.symm.trans hread')
    exact ⟨definition, Option.filter_eq_some_iff.2 ⟨rfl, hkeyword⟩, by rw [hcause]⟩

theorem fault?_eq_some {statement : Statement} (hcode : openBrackets [] statement.code = some [])
    {fault : Fault} :
    statement.fault? = some fault ↔
      (∃ keyword, statement.LacksColon keyword ∧
        fault = ⟨statement.startLine, .missingColon keyword⟩) ∨
      statement.Malformed ∧ fault = ⟨statement.startLine, .malformedHeader⟩ := by
  rw [← Header.read_eq_error, fault?]
  cases hread : Header.read statement with
  | ok header => simp [definitionFault?_eq_some hcode hread]
  | error own =>
    have hform : ¬ statement.Malformed := by
      rw [malformed_iff hcode]
      rintro ⟨header, hheader, -⟩
      rw [hread] at hheader
      cases hheader
    simp [hform]

theorem opensBlock_iff {statement : Statement} :
    statement.opensBlock = true ↔
      ∃ (keyword : Keyword) (i : Nat), keyword.Opens statement.code ∧
        IsHeaderColon statement.code i ∧ Text.allBlank (statement.code.drop (i + 1)) = true := by
  have hread : statement.opensBlock = true ↔
      ∃ header, Header.read statement = .ok (some header) ∧ header.inlineBody = [] := by
    unfold opensBlock
    cases Header.read statement with
    | error fault => simp
    | ok header => cases header <;> simp
  rw [hread]
  constructor
  · rintro ⟨header, hheader, hbody⟩
    obtain ⟨hopens, hcolon, hinline⟩ := Header.read_eq_some.1 hheader
    exact ⟨header.keyword, header.colon, hopens, hcolon, Text.trim_eq_nil.1 (hinline ▸ hbody)⟩
  · rintro ⟨keyword, i, hopens, hcolon, hblank⟩
    have hbody := (Text.trim_eq_nil.2 hblank).symm
    exact ⟨⟨keyword, i, []⟩, Header.read_eq_some.2 ⟨hopens, hcolon, hbody⟩, rfl⟩

theorem blockFault?_eq_some {statement : Statement} {next : Option Statement} {fault : Fault} :
    statement.blockFault? next = some fault ↔
      statement.LacksBlock next ∧ fault = ⟨statement.startLine, .missingBlock⟩ := by
  have hnext : next.any (statement.indent < ·.indent) = false ↔
      ∀ following ∈ next, following.indent ≤ statement.indent := by
    cases next <;> simp
  have hlacks : statement.LacksBlock next ↔
      statement.opensBlock = true ∧ next.any (statement.indent < ·.indent) = false := by
    simp only [opensBlock_iff, hnext, LacksBlock, ← exists_and_right, and_assoc]
  rw [hlacks, blockFault?]
  cases statement.opensBlock <;> cases next.any (statement.indent < ·.indent) <;> simp [eq_comm]

/-- The fault that is found for a statement is the one for its offence. -/
theorem faultBefore?_eq_some {statement : Statement}
    (hcode : openBrackets [] statement.code = some []) {next : Option Statement} {fault : Fault} :
    statement.faultBefore? next = some fault ↔
      statement.Blamed next fault.cause ∧ fault.line = statement.startLine := by
  rw [faultBefore?, Option.or_eq_some_iff, fault?_eq_some hcode, blockFault?_eq_some]
  constructor
  · rintro ((⟨keyword, hcolon, rfl⟩ | ⟨hform, rfl⟩) | ⟨hown, hblock, rfl⟩)
    · exact ⟨.colon hcolon, rfl⟩
    · exact ⟨.form hform, rfl⟩
    · refine ⟨.block (fun hform => ?_) hblock, rfl⟩
      rw [(fault?_eq_some hcode).2 (.inr ⟨hform, rfl⟩)] at hown
      cases hown
  · rcases fault with ⟨line, cause⟩
    rintro ⟨hcolon | hform | ⟨hform, hblock⟩, rfl⟩
    · exact .inl (.inl ⟨_, hcolon, rfl⟩)
    · exact .inl (.inr ⟨hform, rfl⟩)
    · refine .inr ⟨Option.eq_none_iff_forall_ne_some.2 fun own hown => ?_, hblock, rfl⟩
      -- The header has its colon, so only its form could come before the missing block.
      rcases (fault?_eq_some hcode).1 hown with ⟨keyword, ⟨-, -, hnone⟩, -⟩ | ⟨hmalformed, -⟩
      · obtain ⟨-, i, -, hcolon, -⟩ := hblock
        exact hnone i hcolon.1
      · exact hform hmalformed

theorem faultBefore?_eq_none {statement : Statement}
    (hcode : openBrackets [] statement.code = some []) {next : Option Statement} :
    statement.faultBefore? next = none ↔ ¬ statement.Offends next := by
  rw [offends_iff, Option.eq_none_iff_forall_ne_some, not_exists]
  constructor
  · intro h cause hcause
    exact h ⟨statement.startLine, cause⟩ ((faultBefore?_eq_some hcode).2 ⟨hcause, rfl⟩)
  · intro h fault hfault
    exact h fault.cause ((faultBefore?_eq_some hcode).1 hfault).1

end Statement

/-! ### Units -/

/-- Statement `i` commits the first offence, and the fault is the one for it. -/
def FirstOffence (statements : List Statement) (i : Nat) (fault : Fault) : Prop :=
  (∃ statement : Statement, statements[i]? = some statement ∧
    statement.Blamed statements[i + 1]? fault.cause ∧ fault.line = statement.startLine) ∧
  ∀ (j : Nat) (earlier : Statement), j < i → statements[j]? = some earlier →
    ¬ earlier.Offends statements[j + 1]?

theorem firstFault?_iff_firstOffence {statements : List Statement}
    (hcode : ∀ statement ∈ statements, openBrackets [] statement.code = some []) {fault : Fault} :
    firstFault? statements = some fault ↔ ∃ i, FirstOffence statements i fault := by
  have hget {i : Nat} {statement : Statement} (h : statements[i]? = some statement) :=
    hcode statement (List.mem_of_getElem? h)
  rw [firstFault?_eq_some]
  constructor
  · rintro ⟨i, statement, hi, hfault, hbefore⟩
    refine ⟨i, ⟨statement, hi, (Statement.faultBefore?_eq_some (hget hi)).1 hfault⟩, ?_⟩
    intro j earlier hj hearlier
    exact (Statement.faultBefore?_eq_none (hget hearlier)).1 (hbefore j hj earlier hearlier)
  · rintro ⟨i, ⟨statement, hi, hfault⟩, hbefore⟩
    refine ⟨i, statement, hi, (Statement.faultBefore?_eq_some (hget hi)).2 hfault, ?_⟩
    intro j hj earlier hearlier
    exact (Statement.faultBefore?_eq_none (hget hearlier)).2 (hbefore j earlier hj hearlier)

/-- A first offence exists if there is one. -/
theorem exists_firstOffence {statements : List Statement} {i : Nat} {statement : Statement}
    (hi : statements[i]? = some statement) (h : statement.Offends statements[i + 1]?) :
    ∃ j fault, FirstOffence statements j fault := by
  induction i using Nat.strong_induction_on generalizing statement with
  | _ i ih =>
    by_cases hearlier : ∃ j < i, ∃ earlier : Statement, statements[j]? = some earlier ∧
        earlier.Offends statements[j + 1]?
    · obtain ⟨j, hj, earlier, hget, hoffends⟩ := hearlier
      exact ih j hj hget hoffends
    · obtain ⟨cause, hcause⟩ := Statement.offends_iff.1 h
      refine ⟨i, ⟨statement.startLine, cause⟩, ⟨statement, hi, hcause, rfl⟩, ?_⟩
      intro j earlier hj hget hoffends
      exact hearlier ⟨j, hj, earlier, hget, hoffends⟩

/-- A text that can be masked is rejected exactly if one of its statements offends, and the fault is
that of the first one. -/
theorem rejected_for_first_offence {unit : SourceUnit} {masked : List MaskedLine}
    (hmask : mask unit = .ok masked) :
    ((∃ fault, Outline.ofUnit unit = .error fault) ↔
      ∃ (i : Nat) (statement : Statement), (joinLines masked)[i]? = some statement ∧
        statement.Offends (joinLines masked)[i + 1]?) ∧
    ∀ fault, Outline.ofUnit unit = .error fault ↔ ∃ i, FirstOffence (joinLines masked) i fault := by
  have hfirst (fault : Fault) :
      Outline.ofUnit unit = .error fault ↔ ∃ i, FirstOffence (joinLines masked) i fault := by
    rw [Outline.ofUnit_eq_error_of_mask hmask,
      firstFault?_iff_firstOffence (openBrackets_joinLines hmask)]
  refine ⟨?_, hfirst⟩
  simp only [hfirst]
  constructor
  · rintro ⟨fault, i, ⟨statement, hi, hblamed, -⟩, -⟩
    exact ⟨i, statement, hi, Statement.offends_iff.2 ⟨_, hblamed⟩⟩
  · rintro ⟨i, statement, hi, hoffends⟩
    obtain ⟨j, fault, hj⟩ := exists_firstOffence hi hoffends
    exact ⟨fault, j, hj⟩

/-- A keyword used as a name, then a header without a block, which is noticed at the malformed
definition after it. -/
def blockBeforeDefinition : SourceUnit where
  name := "block"
  lines := ["match = [x for x in y]".toList, "while (a :=".toList, "    b):".toList,
    "def 1st(c):".toList]

theorem blockBeforeDefinition_rejected :
    ∃ masked, mask blockBeforeDefinition = .ok masked ∧
      Outline.ofUnit blockBeforeDefinition = .error ⟨2, .missingBlock⟩ ∧
      ∃ i, FirstOffence (joinLines masked) i ⟨2, .missingBlock⟩ := by
  have hrun : ((mask blockBeforeDefinition).map fun masked => firstFault? (joinLines masked)) =
      .ok (some ⟨2, .missingBlock⟩) := by decide +kernel
  obtain ⟨masked, hmask, hfirst⟩ := ok_map_iff.1 hrun
  have hreject := (Outline.ofUnit_eq_error_of_mask hmask).2 hfirst
  exact ⟨masked, hmask, hreject, ((rejected_for_first_offence hmask).2 _).1 hreject⟩

end CodeGrade
