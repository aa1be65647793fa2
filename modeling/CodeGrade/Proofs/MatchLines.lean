import CodeGrade.Proofs.Faults
import CodeGrade.Proofs.Forest
import CodeGrade.Proofs.Repetition
import CodeGrade.Report.Analysis

/-!
# The lines that reports name

A built-in rule never fails, and every match of it names the line of something that the rule looked
at: an element, a statement, a comment or a line of the text. One rule speaks of the file as a whole
and names line zero. So the issues of a report lie within the text, and no rule is ever skipped.

## Main definitions

* `Context.Names`: a line number is that of something a rule looks at.
* `Rule.Located`: a rule that never fails and whose matches name such lines.
* `Report.Degraded`, `Report.Judged`: the two sorts of reports.
-/

namespace CodeGrade

/-! ### What rules look at -/

/-- The line number is that of an element, a statement, a comment or a line of the text. -/
inductive Context.Names (c : Context) : LineNumber → Prop where
  | element {e : Element} (h : e ∈ c.outline.elements) : Names c e.startLine
  | line {l : LogicalLine} (h : l ∈ c.outline.lines) : Names c l.startLine
  | comment {comment : Comment} (h : comment ∈ c.outline.comments) : Names c comment.line
  | text {n : Nat} (hpos : 1 ≤ n) (hle : n ≤ c.unit.lines.length) : Names c n

/-- Everything that is read from a unit is on a line of it. -/
theorem Context.Names.exists_line {unit : SourceUnit} {outline : Outline} {thresholds : Thresholds}
    (houtline : Outline.ofUnit unit = .ok outline) {line : LineNumber}
    (h : Names ⟨unit, outline, thresholds⟩ line) :
    ∃ n : Nat, 1 ≤ n ∧ n ≤ unit.lines.length ∧ line = .ofNat n := by
  have hnested := Outline.wellNested houtline
  cases h with
  | @element e he =>
    obtain ⟨k, hk⟩ := Array.getElem?_of_mem he
    obtain ⟨i, header, hheads⟩ := hnested.exists_heads hk
    have hbounds := hnested.bounds hheads.line
    rw [hheads.describes.startLine]
    exact ⟨header.startLine, hbounds.1, by omega, rfl⟩
  | @line l hl =>
    obtain ⟨i, hi⟩ := Array.getElem?_of_mem hl
    have hbounds := hnested.bounds hi
    exact ⟨l.startLine, hbounds.1, by omega, rfl⟩
  | @comment comment hcomment =>
    obtain ⟨masked, b, hmask, -, rfl⟩ := Outline.ofUnit_eq_ok.1 houtline
    obtain ⟨line, hline, hsome⟩ := List.mem_filterMap.1 hcomment
    obtain ⟨text, -, rfl⟩ := Option.map_eq_some_iff.1 hsome
    have hnumber : line.number ∈ List.range' 1 unit.lines.length := by
      rw [← number_maskFrom hmask]
      exact List.mem_map_of_mem hline
    have hrange := List.mem_range'_1.1 hnumber
    exact ⟨line.number, hrange.1, by omega, rfl⟩
  | @text n hpos hle => exact ⟨n, hpos, hle, rfl⟩

/-! ### What rules report -/

/-- The rule never fails, and its matches name lines of what it looked at. -/
def Rule.Located (rule : Rule) : Prop :=
  ∀ c, ∃ matched, rule.check c = .ok matched ∧ ∀ m ∈ matched, c.Names m.line

section Checks

variable {c : Context} {id title description : String} {category : Category} {severity : Severity}

theorem Rule.located_ofCheck {check : Context → List Match}
    (h : ∀ c, ∀ m ∈ check c, c.Names m.line) :
    (Rule.ofCheck id title category severity description check).Located :=
  fun c => ⟨check c, rfl, h c⟩

theorem Context.names_filterMap {α : Type} {xs : List α} {f : α → Option Match} (line : α → Nat)
    (hxs : ∀ x ∈ xs, c.Names (line x)) (hf : ∀ x m, f x = some m → m.line = line x) :
    ∀ m ∈ xs.filterMap f, c.Names m.line := by
  intro m hm
  obtain ⟨x, hx, hsome⟩ := List.mem_filterMap.1 hm
  rw [hf x m hsome]
  exact hxs x hx

theorem Context.names_filter_map {α : Type} {xs : List α} {p : α → Bool} {g : α → Match}
    (line : α → Nat) (hxs : ∀ x ∈ xs, c.Names (line x)) (hg : ∀ x, (g x).line = line x) :
    ∀ m ∈ (xs.filter p).map g, c.Names m.line := by
  intro m hm
  obtain ⟨x, hx, rfl⟩ := List.mem_map.1 hm
  rw [hg x]
  exact hxs x (List.mem_of_mem_filter hx)

/-- A check that can be switched off. -/
theorem Context.names_ite {p : Prop} [Decidable p] {ms : List Match}
    (h : ∀ m ∈ ms, c.Names m.line) : ∀ m ∈ if p then ms else [], c.Names m.line := by
  intro m hm
  split at hm
  · exact h m hm
  · cases hm

theorem Context.names_element : ∀ e ∈ c.outline.elements.toList, c.Names e.startLine :=
  fun _ he => .element (Array.mem_toList_iff.1 he)

theorem Context.names_numbered :
    ∀ numbered ∈ c.outline.elements.toList.zipIdx, c.Names numbered.1.startLine :=
  fun _ he => names_element _ (List.fst_mem_of_mem_zipIdx he)

theorem Context.names_function :
    ∀ numbered ∈ c.outline.functions, c.Names numbered.1.startLine :=
  fun _ he => names_numbered _ (List.mem_of_mem_filter he)

theorem Context.names_line : ∀ l ∈ c.outline.lines.toList, c.Names l.startLine :=
  fun _ hl => .line (Array.mem_toList_iff.1 hl)

theorem Context.names_text {α : Type} {texts : List α}
    (h : texts.length = c.unit.lines.length) : ∀ numbered ∈ texts.zipIdx 1, c.Names numbered.2 := by
  intro numbered hmem
  have hrange := List.mem_zipIdx hmem
  exact .text hrange.1 (by omega)

end Checks

open Context Rule

theorem located_sizeRules : ∀ rule ∈ sizeRules, rule.Located := by
  simp only [sizeRules, List.forall_mem_cons]
  refine ⟨?_, ?_, ?_, ?_, ?_, List.forall_mem_nil _⟩
  · exact located_ofCheck fun _ => names_filterMap _ names_function (by grind)
  · exact located_ofCheck fun _ => names_filterMap _ names_function (by grind)
  · exact located_ofCheck fun _ => names_filterMap _ names_function (by grind)
  · exact located_ofCheck fun _ => names_filterMap _ names_function (by grind)
  · exact located_ofCheck fun _ => names_filterMap _ names_numbered (by grind)

theorem located_duplicationRules : ∀ rule ∈ duplicationRules, rule.Located := by
  simp only [duplicationRules, List.forall_mem_singleton]
  refine located_ofCheck fun c m hm => ?_
  simp only [duplicateLines] at hm
  split at hm
  · cases hm
  · rename_i entry rest hrepeated
    rw [List.mem_singleton.1 hm]
    have hentry : entry ∈ repetitionsFrom 1 [] c.unit.lines :=
      List.mem_of_mem_filter (hrepeated ▸ List.mem_cons_self)
    have hbears := ((tabulates_repetitions c.unit.lines).first entry hentry).1
    exact .text hbears.1 hbears.le

theorem located_bareExceptRule : bareExceptRule.Located :=
  located_ofCheck fun _ => names_filterMap _ names_line (by grind)

theorem located_unguardedIoRule : unguardedIoRule.Located :=
  located_ofCheck fun _ => names_filterMap _ names_line (by grind)

theorem located_missingCleanupRule : missingCleanupRule.Located := by
  refine located_ofCheck fun _ => names_filterMap _ names_line ?_
  intro l m hleak
  unfold leak? at hleak
  grind [unclosed, unreleased, Option.map_eq_some_iff]

theorem located_loopRules : ∀ rule ∈ loopRules, rule.Located := by
  simp only [loopRules, List.forall_mem_cons]
  refine ⟨?_, ?_, List.forall_mem_nil _⟩
  · exact located_ofCheck fun _ => names_filterMap _ names_line (by grind)
  · refine located_ofCheck fun _ => names_filterMap _ names_line ?_
    intro inner m hm
    split at hm
    · obtain ⟨collection, -, hm⟩ := Option.bind_eq_some_iff.1 hm
      obtain ⟨outer, -, hm⟩ := Option.bind_eq_some_iff.1 hm
      rw [← Option.some.inj hm]
    · cases hm

theorem located_hardcodedSecretRule : hardcodedSecretRule.Located :=
  located_ofCheck fun _ =>
    names_filterMap _ (names_text rfl) (by grind [Option.map_eq_some_iff])

theorem located_injectionRules : ∀ rule ∈ injectionRules, rule.Located := by
  simp only [injectionRules, List.forall_mem_cons]
  refine ⟨?_, ?_, ?_, List.forall_mem_nil _⟩
  · exact located_ofCheck fun _ =>
      names_filterMap _ names_line (by grind [Option.map_eq_some_iff])
  · exact located_ofCheck fun _ => names_filterMap _ names_line (by grind)
  · exact located_ofCheck fun _ => names_filterMap _ names_line (by grind)

theorem located_documentationRules : ∀ rule ∈ documentationRules, rule.Located := by
  simp only [documentationRules, List.forall_mem_cons]
  refine ⟨?_, ?_, ?_, List.forall_mem_nil _⟩
  all_goals exact located_ofCheck fun _ => names_ite (names_filter_map _ names_element fun _ => rfl)

theorem located_namingRule : namingRule.Located :=
  located_ofCheck fun _ => names_filterMap _ names_element (by grind)

theorem located_todoRule : todoRule.Located :=
  located_ofCheck fun _ => names_filter_map _ (fun _ h => .comment h) fun _ => rfl

theorem located_practiceRules : ∀ rule ∈ practiceRules, rule.Located := by
  simp only [practiceRules, List.forall_mem_cons]
  refine ⟨?_, ?_, ?_, ?_, List.forall_mem_nil _⟩
  · exact located_ofCheck fun _ => names_filter_map _ names_line fun _ => rfl
  · exact located_ofCheck fun _ => names_filterMap _ (names_text rfl) (by grind)
  · exact located_ofCheck fun _ => names_filter_map _ names_line fun _ => rfl
  · refine located_ofCheck fun c m hm => ?_
    obtain ⟨e, he, hm⟩ := List.mem_flatMap.1 hm
    obtain ⟨parameter, -, rfl⟩ := List.mem_map.1 hm
    exact names_element e he

theorem located_builtinRules : ∀ rule ∈ builtinRules, rule = noHandlingRule ∨ rule.Located := by
  intro rule hrule
  simp only [builtinRules, List.mem_append, List.mem_cons, List.not_mem_nil, or_false] at hrule
  rcases hrule with
    ((((((((hrule | hrule) | rfl | rfl | rfl | rfl) | hrule) | rfl) | hrule) | hrule) | rfl | rfl) |
      hrule)
  · exact .inr (located_sizeRules rule hrule)
  · exact .inr (located_duplicationRules rule hrule)
  · exact .inr located_bareExceptRule
  · exact .inr located_unguardedIoRule
  · exact .inr located_missingCleanupRule
  · exact .inl rfl
  · exact .inr (located_loopRules rule hrule)
  · exact .inr located_hardcodedSecretRule
  · exact .inr (located_injectionRules rule hrule)
  · exact .inr (located_documentationRules rule hrule)
  · exact .inr located_namingRule
  · exact .inr located_todoRule
  · exact .inr (located_practiceRules rule hrule)

theorem line_of_noHandling {c : Context} : ∀ m ∈ noHandling c, m.line = .ofNat 0 := by
  intro m hm
  simp only [noHandling] at hm
  split at hm
  · cases hm
  · rw [List.mem_singleton.1 hm]

/-! ### Identifiers and titles -/

theorem nodup_builtinRules : (builtinRules.map (·.id)).Nodup := by decide

theorem eq_noHandlingRule {rule : Rule} (hrule : rule ∈ builtinRules)
    (hid : rule.id = "no-error-handling") : rule = noHandlingRule :=
  List.inj_on_of_nodup_map nodup_builtinRules hrule (by simp [builtinRules]) hid

theorem builtinRules_not_reserved : ∀ rule ∈ builtinRules,
    rule.id ≠ unparsableId ∧ rule.title ≠ "Rule Internal Error" := by
  decide

/-! ### Evaluating the rules in force -/

theorem LineNumber.within_ofNat {n lineCount : Nat} (h : n ≤ lineCount) :
    (LineNumber.ofNat n).within lineCount = true := by
  simp [LineNumber.within, LineNumber.ofNat, h]

/-- A rule whose matches lie within the text is not skipped. -/
theorem CatalogEntry.issues_eq {entry : CatalogEntry} {c : Context} {matched : List Match}
    (hcheck : entry.rule.check c = .ok matched)
    (hwithin : ∀ m ∈ matched, m.line.within c.unit.lines.length = true) :
    entry.issues c = matched.map entry.issue := by
  have hrange : outOfRange? matched c.unit.lines.length = none := by
    simpa [outOfRange?] using hwithin
  have houtcome : entry.outcome c = .ok matched := by
    rw [CatalogEntry.outcome, hcheck]
    simp only [bind, Except.bind, hrange]
  rw [CatalogEntry.issues, houtcome]

theorem mem_evaluate {catalog : Catalog} {c : Context} {issue : Issue} :
    issue ∈ evaluate catalog c ↔ ∃ entry ∈ catalog.entries, issue ∈ entry.issues c := by
  simp only [evaluate, sortIssues, List.mem_map, List.mem_mergeSort, List.mem_flatMap,
    CatalogEntry.ranked]
  grind

/-- A catalog holds registered rules only. -/
theorem Catalog.rule_mem_of_build {config : Option Json} {rules : List Rule} {catalog : Catalog}
    (h : Catalog.build config rules = .ok catalog) :
    ∀ entry ∈ catalog.entries, entry.rule ∈ rules := by
  unfold Catalog.build at h
  split at h
  · obtain ⟨configuration, -, h⟩ := ok_bind_iff.1 h
    obtain ⟨resolved, -, h⟩ := ok_bind_iff.1 h
    obtain rfl := Except.ok.inj h
    intro entry hentry
    obtain ⟨⟨rule, order⟩, hrule, hentry⟩ := List.mem_filterMap.1 hentry
    have hmem := List.fst_mem_of_mem_zipIdx hrule
    grind
  · cases h

/-! ### The two sorts of reports -/

/-- The report of a unit with a fault: its only issue is critical and on the line of the fault. -/
structure Report.Degraded (report : Report) (unit : SourceUnit) (fault : Fault) : Prop where
  rejected : Outline.ofUnit unit = .error fault
  line : 1 ≤ fault.line ∧ fault.line ≤ unit.lines.length
  issues : ∃ issue : Issue, report.issues = [issue] ∧ issue.ruleId = "unparsable-source" ∧
    issue.severity = .critical ∧ issue.category = .structural ∧
    issue.line = .ofNat fault.line ∧
    issue.message = "Source could not be parsed: " ++ fault.reason

/-- The report of a unit that was judged by the rules: none of them fails or is skipped, and their
issues are on lines of the unit, apart from the one that speaks of the file as a whole. -/
structure Report.Judged (report : Report) (unit : SourceUnit) (outline : Outline)
    (thresholds : Thresholds) : Prop where
  accepted : Outline.ofUnit unit = .ok outline
  succeeds : ∀ rule ∈ builtinRules, ∃ matched,
    rule.check ⟨unit, outline, thresholds⟩ = .ok matched ∧
      ∀ m ∈ matched, m.line.within unit.lines.length = true
  known : ∀ issue ∈ report.issues,
    issue.ruleId ≠ "unparsable-source" ∧ issue.title ≠ "Rule Internal Error"
  whole : ∀ issue ∈ report.issues, issue.ruleId = "no-error-handling" → issue.line = .ofNat 0
  located : ∀ issue ∈ report.issues, issue.ruleId ≠ "no-error-handling" →
    ∃ n : Nat, 1 ≤ n ∧ n ≤ unit.lines.length ∧ issue.line = .ofNat n

/-- Every match of a built-in rule is on a line of the unit, or on line zero if the rule speaks of
the file as a whole. -/
theorem lines_of_check {unit : SourceUnit} {outline : Outline} {thresholds : Thresholds}
    (houtline : Outline.ofUnit unit = .ok outline) {rule : Rule} (hrule : rule ∈ builtinRules) :
    ∃ matched, rule.check ⟨unit, outline, thresholds⟩ = .ok matched ∧ ∀ m ∈ matched,
      (rule.id = "no-error-handling" ∧ m.line = .ofNat 0) ∨
        (rule.id ≠ "no-error-handling" ∧
          ∃ n : Nat, 1 ≤ n ∧ n ≤ unit.lines.length ∧ m.line = .ofNat n) := by
  by_cases hid : rule.id = "no-error-handling"
  · obtain rfl := eq_noHandlingRule hrule hid
    exact ⟨_, rfl, fun m hm => .inl ⟨rfl, line_of_noHandling m hm⟩⟩
  · rcases located_builtinRules rule hrule with rfl | hlocated
    · exact absurd rfl hid
    · obtain ⟨matched, hcheck, hnames⟩ := hlocated ⟨unit, outline, thresholds⟩
      exact ⟨matched, hcheck, fun m hm => .inr ⟨hid, (hnames m hm).exists_line houtline⟩⟩

theorem within_of_check {unit : SourceUnit} {outline : Outline} {thresholds : Thresholds}
    (houtline : Outline.ofUnit unit = .ok outline) {rule : Rule} (hrule : rule ∈ builtinRules) :
    ∃ matched, rule.check ⟨unit, outline, thresholds⟩ = .ok matched ∧
      ∀ m ∈ matched, m.line.within unit.lines.length = true := by
  obtain ⟨matched, hcheck, hlines⟩ := lines_of_check houtline hrule
  refine ⟨matched, hcheck, fun m hm => ?_⟩
  rcases hlines m hm with ⟨-, hzero⟩ | ⟨-, n, -, hn, hline⟩
  · rw [hzero]
    exact LineNumber.within_ofNat (Nat.zero_le _)
  · rw [hline]
    exact LineNumber.within_ofNat hn

/-- Each issue comes from a match of a rule in force. -/
theorem exists_match_of_issue {unit : SourceUnit} {outline : Outline} {catalog : Catalog}
    (hcatalog : ∀ entry ∈ catalog.entries, entry.rule ∈ builtinRules)
    (houtline : Outline.ofUnit unit = .ok outline) :
    ∀ issue ∈ (analyze unit catalog).issues, ∃ entry ∈ catalog.entries, ∃ matched,
      entry.rule.check ⟨unit, outline, catalog.thresholds⟩ = .ok matched ∧
        ∃ m ∈ matched, issue = entry.issue m := by
  intro issue hissue
  simp only [analyze, houtline] at hissue
  obtain ⟨entry, hentry, hissue⟩ := mem_evaluate.1 hissue
  obtain ⟨matched, hcheck, hwithin⟩ := within_of_check houtline (hcatalog entry hentry)
  rw [CatalogEntry.issues_eq hcheck hwithin] at hissue
  obtain ⟨m, hm, rfl⟩ := List.mem_map.1 hissue
  exact ⟨entry, hentry, matched, hcheck, m, hm, rfl⟩

theorem degraded_of_error {unit : SourceUnit} {fault : Fault} (catalog : Catalog)
    (h : Outline.ofUnit unit = .error fault) : (analyze unit catalog).Degraded unit fault := by
  have hline := line_of_ofUnit_error h
  refine ⟨h, hline, unparsableIssue unit.lines.length fault.line fault.reason, ?_, rfl, rfl, rfl,
    ?_, rfl⟩
  · simp only [analyze, h]
    rfl
  · have hle : (LineNumber.ofNat fault.line).le (.ofNat unit.lines.length) = true := by
      simp [LineNumber.le, LineNumber.ofNat, hline.2]
    simp [unparsableIssue, hle]

theorem judged_of_ok {unit : SourceUnit} {outline : Outline} {catalog : Catalog}
    (hcatalog : ∀ entry ∈ catalog.entries, entry.rule ∈ builtinRules)
    (h : Outline.ofUnit unit = .ok outline) :
    (analyze unit catalog).Judged unit outline catalog.thresholds := by
  have hlines : ∀ issue ∈ (analyze unit catalog).issues, ∃ rule ∈ builtinRules,
      issue.ruleId = rule.id ∧ issue.title = rule.title ∧
        ((rule.id = "no-error-handling" ∧ issue.line = .ofNat 0) ∨
          (rule.id ≠ "no-error-handling" ∧
            ∃ n : Nat, 1 ≤ n ∧ n ≤ unit.lines.length ∧ issue.line = .ofNat n)) := by
    intro issue hissue
    obtain ⟨entry, hentry, matched, hcheck, m, hm, rfl⟩ :=
      exists_match_of_issue hcatalog h issue hissue
    have hrule := hcatalog entry hentry
    obtain ⟨matched', hcheck', hline⟩ := lines_of_check h hrule
    obtain rfl := Except.ok.inj (hcheck.symm.trans hcheck')
    exact ⟨entry.rule, hrule, rfl, rfl, hline m hm⟩
  constructor
  case accepted => exact h
  case succeeds => exact fun rule hrule => within_of_check h hrule
  case known =>
    intro issue hissue
    obtain ⟨rule, hrule, hid, htitle, -⟩ := hlines issue hissue
    rw [hid, htitle]
    exact builtinRules_not_reserved rule hrule
  case whole =>
    intro issue hissue hid
    obtain ⟨rule, -, hid', -, ⟨-, hzero⟩ | ⟨hne, -⟩⟩ := hlines issue hissue
    · exact hzero
    · exact absurd (hid'.symm.trans hid) hne
  case located =>
    intro issue hissue hid
    obtain ⟨rule, -, hid', -, ⟨heq, -⟩ | ⟨-, hline⟩⟩ := hlines issue hissue
    · exact absurd (hid'.trans heq) hid
    · exact hline

/-- With the built-in rules, under every accepted configuration, a report is of exactly one of two
sorts: the unit has a fault, and the only issue is on its line; or the unit was judged, no rule
failed, and all issues lie within the unit. -/
theorem analyze_degraded_xor_judged {config : Option Json} {catalog : Catalog}
    (hcatalog : Catalog.build config = .ok catalog) (unit : SourceUnit) :
    Xor (∃ fault, (analyze unit catalog).Degraded unit fault)
      (∃ outline, (analyze unit catalog).Judged unit outline catalog.thresholds) := by
  cases h : Outline.ofUnit unit with
  | error fault =>
    refine .inl ⟨⟨fault, degraded_of_error catalog h⟩, ?_⟩
    rintro ⟨outline, hjudged⟩
    cases h.symm.trans hjudged.accepted
  | ok outline =>
    refine .inr ⟨⟨outline, judged_of_ok (Catalog.rule_mem_of_build hcatalog) h⟩, ?_⟩
    rintro ⟨fault, hdegraded⟩
    cases h.symm.trans hdegraded.rejected

/-- A definition whose parameter list is not closed, below a definition. -/
def unclosedList : SourceUnit where
  name := "unclosed"
  lines := ["def f(): return 1".toList, "def g(".toList]

/-- The same without the second definition. -/
def oneFunction : SourceUnit where
  name := "function"
  lines := ["def f(): return 1".toList]

theorem standard_reports :
    ∃ catalog, Catalog.build none = .ok catalog ∧
      (∃ fault, fault.line = 2 ∧ (analyze unclosedList catalog).Degraded unclosedList fault) ∧
      ∃ outline, (analyze oneFunction catalog).Judged oneFunction outline catalog.thresholds := by
  have hbuild : (Catalog.build none).toOption.isSome = true := by decide +kernel
  have hmask : mask unclosedList = .error ⟨2, .neverClosed '('⟩ := by decide +kernel
  have haccepted : (Outline.ofUnit oneFunction).toOption.isSome = true := by decide +kernel
  cases hcatalog : Catalog.build none with
  | error problems => simp [hcatalog, Except.toOption] at hbuild
  | ok catalog =>
    refine ⟨catalog, rfl, ?_, ?_⟩
    · have hrejected := Outline.ofUnit_eq_error.2 (.inl hmask)
      rcases analyze_degraded_xor_judged hcatalog unclosedList with ⟨⟨fault, h⟩, -⟩ | ⟨⟨_, h⟩, -⟩
      · obtain rfl := Except.error.inj (hrejected.symm.trans h.rejected)
        exact ⟨_, rfl, h⟩
      · cases hrejected.symm.trans h.accepted
    · rcases analyze_degraded_xor_judged hcatalog oneFunction with ⟨⟨_, h⟩, -⟩ | ⟨h, -⟩
      · simp [h.rejected, Except.toOption] at haccepted
      · exact h

end CodeGrade
