import CodeGrade.Proofs.MatchLines

/-!
# The order of reports

The evaluation of a catalog reports what its rules find, all of it and nothing else: each finding
once, the grave ones first, then by line, then by the registration of the rules, and otherwise as it
was found. These conditions leave one list only. The evaluation reaches it unless a rule fails with
something that cannot be described.

## Main definitions

* `sortedBy`: a list sorted by a key.
* `RankedIssue.key`: what issues are sorted by.
* `CatalogEntry.Reports`: the issues that a rule in force gives rise to.
* `Finding`: an issue with the place of its rule in the catalog and its own place in the rule.
* `InReportOrder`: a list of findings as a report shows them.
-/

namespace CodeGrade

/-! ### Sorting by a key -/

section SortedBy

variable {α κ : Type} [LinearOrder κ] {key : α → κ} {l : List α}

/-- The list sorted by a key. Elements with the same key keep their order. -/
def sortedBy (key : α → κ) (l : List α) : List α := l.mergeSort fun x y => decide (key x ≤ key y)

theorem perm_sortedBy (key : α → κ) (l : List α) : (sortedBy key l).Perm l :=
  List.mergeSort_perm l _

@[simp] theorem mem_sortedBy {a : α} : a ∈ sortedBy key l ↔ a ∈ l := List.mem_mergeSort

/-- The head of a list goes right behind the smaller elements. -/
theorem exists_sortedBy_cons (key : α → κ) (a : α) (l : List α) :
    ∃ l₁ l₂, sortedBy key (a :: l) = l₁ ++ a :: l₂ ∧ sortedBy key l = l₁ ++ l₂ ∧
      (∀ b ∈ l₁, key b < key a) ∧ ∀ b ∈ l₂, key a ≤ key b := by
  have htrans : ∀ x y z : α, decide (key x ≤ key y) = true → decide (key y ≤ key z) = true →
      decide (key x ≤ key z) = true := by
    intro x y z hxy hyz
    simp only [decide_eq_true_eq] at hxy hyz ⊢
    exact hxy.trans hyz
  have htotal : ∀ x y : α, (decide (key x ≤ key y) || decide (key y ≤ key x)) = true := by
    intro x y
    simpa using le_total (key x) (key y)
  obtain ⟨l₁, l₂, hcons, hrest, hbefore⟩ := List.mergeSort_cons htrans htotal a l
  refine ⟨l₁, l₂, hcons, hrest, fun b hb => by simpa using hbefore b hb, fun b hb => ?_⟩
  have hsorted := List.pairwise_mergeSort htrans htotal (a :: l)
  rw [hcons] at hsorted
  have hafter := (List.pairwise_cons.1 (List.pairwise_append.1 hsorted).2.1).1 b hb
  simpa using hafter

/-- Sorting is stable. -/
theorem pairwise_sortedBy {r : α → α → Prop} (h : l.Pairwise r) :
    (sortedBy key l).Pairwise fun x y => key x ≤ key y ∧ (key x = key y → r x y) := by
  induction l with
  | nil => simp [sortedBy]
  | cons a l ih =>
    obtain ⟨ha, hl⟩ := List.pairwise_cons.1 h
    obtain ⟨l₁, l₂, hcons, hrest, hbefore, hafter⟩ := exists_sortedBy_cons key a l
    have hmem : ∀ b ∈ l₂, b ∈ l := by
      intro b hb
      apply (perm_sortedBy key l).mem_iff.1
      rw [hrest]
      exact List.mem_append_right l₁ hb
    have ih := ih hl
    rw [hrest, List.pairwise_append] at ih
    rw [hcons, List.pairwise_append, List.pairwise_cons]
    refine ⟨ih.1, ⟨fun b hb => ⟨hafter b hb, fun _ => ha b (hmem b hb)⟩, ih.2.1⟩, ?_⟩
    intro b hb x hx
    rcases List.mem_cons.1 hx with rfl | hx
    · exact ⟨(hbefore b hb).le, fun heq => absurd heq (hbefore b hb).ne⟩
    · exact ih.2.2 b hb x hx

end SortedBy

/-! ### What issues are sorted by -/

/-- The natural number that a line number is. -/
def LineNumber.toNat : LineNumber → ℕ
  | exact value => value.num.toNat
  | infinite _ | notANumber => 0

@[simp] theorem LineNumber.toNat_ofNat (n : ℕ) : (LineNumber.ofNat n).toNat = n := by
  simp [LineNumber.toNat, LineNumber.ofNat]

theorem LineNumber.lt_ofNat (m n : ℕ) :
    (LineNumber.ofNat m).lt (LineNumber.ofNat n) = decide (m < n) := by
  rw [Bool.eq_iff_iff]
  simp only [LineNumber.lt, LineNumber.le, LineNumber.ofNat, Bool.and_eq_true,
    Bool.not_eq_true', decide_eq_true_eq, decide_eq_false_iff_not, Nat.cast_le]
  omega

theorem LineNumber.within_iff {lineCount : ℕ} {line : LineNumber} :
    line.within lineCount = true ↔ ∃ n ≤ lineCount, line = .ofNat n := by
  constructor
  · intro h
    cases line with
    | exact value =>
      simp only [LineNumber.within, Bool.and_eq_true, decide_eq_true_eq] at h
      obtain ⟨⟨hden, hpos⟩, hle⟩ := h
      obtain ⟨n, hn⟩ := Int.eq_ofNat_of_zero_le (Rat.num_nonneg.2 hpos)
      have hvalue : value = n := by
        rw [← (Rat.den_eq_one_iff value).1 hden, hn, Int.cast_natCast]
      rw [hvalue, Nat.cast_le] at hle
      exact ⟨n, hle, by rw [hvalue, LineNumber.ofNat]⟩
    | infinite negative => simp [LineNumber.within] at h
    | notANumber => simp [LineNumber.within] at h
  · rintro ⟨n, hn, rfl⟩
    simp [LineNumber.within, LineNumber.ofNat, hn]

/-- What issues are sorted by: severity, line, and the registration of the rule. -/
def RankedIssue.key (r : RankedIssue) : ℕ ×ₗ ℕ ×ₗ ℤ :=
  toLex (r.issue.severity.rank, toLex (r.issue.line.toNat, r.order))

theorem RankedIssue.le_eq_key {a b : RankedIssue} {m n : ℕ} (ha : a.issue.line = .ofNat m)
    (hb : b.issue.line = .ofNat n) : a.le b = decide (a.key ≤ b.key) := by
  rw [Bool.eq_iff_iff]
  simp only [RankedIssue.le, RankedIssue.key, ha, hb, LineNumber.lt_ofNat, LineNumber.toNat_ofNat,
    Prod.Lex.toLex_le_toLex, decide_eq_true_eq]
  grind

/-- Issues on lines are sorted by their keys. -/
theorem sortIssues_eq {ranked : List RankedIssue}
    (h : ∀ r ∈ ranked, ∃ n : ℕ, r.issue.line = .ofNat n) :
    sortIssues ranked = (sortedBy RankedIssue.key ranked).map (·.issue) := by
  have hsort : ranked.mergeSort RankedIssue.le = sortedBy RankedIssue.key ranked := by
    have hle : ∀ a ∈ ranked, ∀ b ∈ ranked, a.le b = decide (a.key ≤ b.key) := by
      intro a ha b hb
      obtain ⟨m, hm⟩ := h a ha
      obtain ⟨n, hn⟩ := h b hb
      exact RankedIssue.le_eq_key hm hn
    simpa [sortedBy] using List.map_mergeSort (f := id) hle
  rw [sortIssues, hsort]

/-! ### What a rule in force reports -/

/-- The number is zero or that of a line of the unit. -/
def Context.HasLine (c : Context) (line : LineNumber) : Prop :=
  ∃ n ≤ c.unit.lines.length, line = .ofNat n

/-- Why a rule in force is skipped: its check failed, or a match is not on a line of the unit. The
first such match is named. -/
inductive CatalogEntry.Fails (entry : CatalogEntry) (c : Context) : String → Prop where
  | check {fault : RuleFault} (hcheck : entry.rule.check c = .error fault) :
      Fails entry c fault.message
  | stray {before after : List Match} {m : Match}
      (hcheck : entry.rule.check c = .ok (before ++ m :: after))
      (hbefore : ∀ x ∈ before, c.HasLine x.line) (hm : ¬c.HasLine m.line) :
      Fails entry c (RuleFault.outOfRange m.line c.unit.lines.length).message

/-- The issues that a rule in force gives rise to: one for each match if all of them are on lines of
the unit, and otherwise a single one that says that the rule was skipped. -/
inductive CatalogEntry.Reports (entry : CatalogEntry) (c : Context) : List Issue → Prop where
  | found {matched : List Match} (hcheck : entry.rule.check c = .ok matched)
      (hlines : ∀ m ∈ matched, c.HasLine m.line) :
      Reports entry c (matched.map fun m =>
        { ruleId := entry.rule.id
          title := entry.rule.title
          category := entry.rule.category
          severity := entry.severity
          line := m.line
          message := m.message
          evidence := m.evidence
          suggestion := m.suggestion })
  | skipped {reason : String} (hfails : entry.Fails c reason) :
      Reports entry c [
        { ruleId := entry.rule.id
          title := "Rule Internal Error"
          category := entry.rule.category
          severity := .low
          line := .ofNat 0
          message := "Rule '" ++ entry.rule.id ++ "' failed and was skipped: " ++ reason }]

section Entry

variable {entry : CatalogEntry} {c : Context} {issues : List Issue} {reason : String}

theorem CatalogEntry.Fails.exists_fault (h : entry.Fails c reason) :
    ∃ fault, entry.outcome c = .error fault ∧ fault.message = reason := by
  cases h with
  | @check fault hcheck => exact ⟨fault, by rw [CatalogEntry.outcome, hcheck]; rfl, rfl⟩
  | @stray before after m hcheck hbefore hm =>
    have hfind : outOfRange? (before ++ m :: after) c.unit.lines.length = some m.line := by
      rw [outOfRange?, Option.map_eq_some_iff]
      refine ⟨m, List.find?_eq_some_iff_append.2 ⟨?_, before, after, rfl, fun x hx => ?_⟩, rfl⟩
      · simpa using fun h => hm (LineNumber.within_iff.1 h)
      · simpa using LineNumber.within_iff.2 (hbefore x hx)
    refine ⟨.outOfRange m.line c.unit.lines.length, ?_, rfl⟩
    rw [CatalogEntry.outcome, hcheck]
    simp only [bind, Except.bind, hfind]

theorem CatalogEntry.Reports.eq_issues (h : entry.Reports c issues) : issues = entry.issues c := by
  cases h with
  | found hcheck hlines =>
    rw [CatalogEntry.issues_eq hcheck fun m hm => LineNumber.within_iff.2 (hlines m hm)]
    rfl
  | skipped hfails =>
    obtain ⟨fault, houtcome, rfl⟩ := hfails.exists_fault
    rw [CatalogEntry.issues, houtcome]
    rfl

/-- Every rule in force either reports its matches or is skipped. -/
theorem CatalogEntry.exists_reports (entry : CatalogEntry) (c : Context) :
    ∃ issues, entry.Reports c issues := by
  cases hcheck : entry.rule.check c with
  | error fault => exact ⟨_, .skipped (.check hcheck)⟩
  | ok matched =>
    cases hfind : matched.find? fun m => !m.line.within c.unit.lines.length with
    | none =>
      have hwithin := List.find?_eq_none.1 hfind
      refine ⟨_, .found hcheck fun m hm => LineNumber.within_iff.1 ?_⟩
      simpa using hwithin m hm
    | some m =>
      obtain ⟨hm, before, after, rfl, hbefore⟩ := List.find?_eq_some_iff_append.1 hfind
      refine ⟨_, .skipped (.stray hcheck (fun x hx => LineNumber.within_iff.1 ?_) fun h => ?_)⟩
      · simpa using hbefore x hx
      · simp [LineNumber.within_iff.2 h] at hm

theorem CatalogEntry.reports_iff : entry.Reports c issues ↔ issues = entry.issues c := by
  constructor
  · exact CatalogEntry.Reports.eq_issues
  · rintro rfl
    obtain ⟨issues, h⟩ := entry.exists_reports c
    rwa [← h.eq_issues]

/-- Issues are on lines of the unit. -/
theorem CatalogEntry.Reports.hasLine (h : entry.Reports c issues) :
    ∀ issue ∈ issues, c.HasLine issue.line := by
  intro issue hissue
  cases h with
  | found hcheck hlines =>
    obtain ⟨m, hm, rfl⟩ := List.mem_map.1 hissue
    exact hlines m hm
  | skipped hfails =>
    rw [List.mem_singleton.1 hissue]
    exact ⟨0, Nat.zero_le _, rfl⟩

end Entry

/-! ### Findings -/

/-- An issue with the place of its rule in the catalog and its own place among the issues of the
rule. -/
structure Finding extends RankedIssue where
  entry : ℕ
  index : ℕ

/-- Where an issue was found. -/
def Finding.place (f : Finding) : ℕ ×ₗ ℕ := toLex (f.entry, f.index)

/-- The issue is one of those that the rule at its place gives rise to. -/
def Catalog.Finds (catalog : Catalog) (c : Context) (f : Finding) : Prop :=
  ∃ entry issues, catalog.entries[f.entry]? = some entry ∧ f.order = entry.order ∧
    entry.Reports c issues ∧ issues[f.index]? = some f.issue

/-- The findings of a catalog as a report shows them. -/
structure InReportOrder (catalog : Catalog) (c : Context) (listing : List Finding) : Prop where
  /-- No finding is there twice. -/
  nodup : listing.Nodup
  /-- No finding is lost, and none is made up. -/
  complete : ∀ f, f ∈ listing ↔ catalog.Finds c f
  /-- Findings are sorted by severity, then by line, then by the registration of the rule. -/
  sorted : listing.Pairwise fun f g => f.key ≤ g.key
  /-- What agrees in all three stays in the order of the catalog and, for one rule, in the order of
  its matches. -/
  stable : listing.Pairwise fun f g => f.key = g.key → f.place < g.place

/-- The findings of a catalog, rule by rule. -/
def Catalog.findings (catalog : Catalog) (c : Context) : List Finding :=
  catalog.entries.zipIdx.flatMap fun numbered =>
    (numbered.1.issues c).zipIdx.map fun found => ⟨⟨found.1, numbered.1.order⟩, numbered.2, found.2⟩

section Findings

variable {catalog : Catalog} {c : Context}

theorem mem_findings {f : Finding} : f ∈ catalog.findings c ↔ catalog.Finds c f := by
  simp only [Catalog.findings, Catalog.Finds, CatalogEntry.reports_iff, List.mem_flatMap,
    List.mem_map, List.mem_zipIdx_iff_getElem?]
  constructor
  · rintro ⟨numbered, hentry, found, hfound, rfl⟩
    exact ⟨numbered.1, _, hentry, rfl, rfl, hfound⟩
  · rintro ⟨entry, issues, hentry, horder, rfl, hissue⟩
    refine ⟨(entry, f.entry), hentry, (f.issue, f.index), hissue, ?_⟩
    rw [← horder]

theorem map_findings : (catalog.findings c).map (·.toRankedIssue) =
    catalog.entries.flatMap (·.ranked c) := by
  have hentry : ∀ entry : CatalogEntry, (entry.issues c).zipIdx.map
      (fun found => (⟨found.1, entry.order⟩ : RankedIssue)) = entry.ranked c := by
    intro entry
    conv_rhs => rw [CatalogEntry.ranked, ← List.zipIdx_map_fst 0 (entry.issues c), List.map_map]
    rfl
  conv_rhs => rw [← List.zipIdx_map_fst 0 catalog.entries, List.flatMap_map]
  simp only [Catalog.findings, List.map_flatMap, List.map_map, Function.comp_def, hentry]

theorem pairwise_zipIdx {α : Type} (l : List α) : l.zipIdx.Pairwise fun a b => a.2 < b.2 := by
  rw [← List.pairwise_map (f := Prod.snd) (R := (· < ·)), List.zipIdx_map_snd]
  exact List.pairwise_lt_range'

theorem pairwise_findings : (catalog.findings c).Pairwise fun f g => f.place < g.place := by
  rw [Catalog.findings, List.pairwise_flatMap]
  constructor
  · intro numbered hnumbered
    rw [List.pairwise_map]
    refine (pairwise_zipIdx _).imp ?_
    intro a b hab
    exact Prod.Lex.toLex_lt_toLex.2 (.inr ⟨rfl, hab⟩)
  · refine (pairwise_zipIdx _).imp ?_
    intro a b hab f hf g hg
    obtain ⟨found, -, rfl⟩ := List.mem_map.1 hf
    obtain ⟨found', -, rfl⟩ := List.mem_map.1 hg
    exact Prod.Lex.toLex_lt_toLex.2 (.inl hab)

theorem evaluate_eq_sortedBy : evaluate catalog c =
    (sortedBy RankedIssue.key (catalog.entries.flatMap (·.ranked c))).map (·.issue) := by
  refine sortIssues_eq fun r hr => ?_
  obtain ⟨entry, -, hr⟩ := List.mem_flatMap.1 hr
  obtain ⟨issue, hissue, rfl⟩ := List.mem_map.1 hr
  obtain ⟨n, -, hn⟩ := (CatalogEntry.reports_iff.2 rfl).hasLine issue hissue
  exact ⟨n, hn⟩

/-- The evaluation sorts the findings. -/
theorem evaluate_eq_findings : evaluate catalog c =
    (sortedBy (fun f : Finding => f.key) (catalog.findings c)).map (·.issue) := by
  have hmap : (sortedBy (fun f : Finding => f.key) (catalog.findings c)).map (·.toRankedIssue) =
      sortedBy RankedIssue.key ((catalog.findings c).map (·.toRankedIssue)) :=
    List.map_mergeSort fun _ _ _ _ => rfl
  rw [evaluate_eq_sortedBy, ← map_findings, ← hmap, List.map_map]
  rfl

theorem inReportOrder_sortedBy :
    InReportOrder catalog c (sortedBy (fun f : Finding => f.key) (catalog.findings c)) := by
  have hstable : (sortedBy (fun f : Finding => f.key) (catalog.findings c)).Pairwise fun f g =>
      f.key ≤ g.key ∧ (f.key = g.key → f.place < g.place) := pairwise_sortedBy pairwise_findings
  constructor
  case nodup =>
    rw [(perm_sortedBy _ _).nodup_iff]
    exact pairwise_findings.imp fun hlt heq => hlt.ne (congrArg Finding.place heq)
  case complete => exact fun f => mem_sortedBy.trans mem_findings
  case sorted => exact hstable.imp And.left
  case stable => exact hstable.imp And.right

/-- The conditions on a report leave one list only. -/
theorem InReportOrder.unique {listing other : List Finding} (h : InReportOrder catalog c listing)
    (hother : InReportOrder catalog c other) : listing = other := by
  have hperm : listing.Perm other :=
    (List.perm_ext_iff_of_nodup h.nodup hother.nodup).2 fun f =>
      (h.complete f).trans (hother.complete f).symm
  refine List.Perm.eq_of_pairwise ?_ (h.sorted.and h.stable) (hother.sorted.and hother.stable) hperm
  rintro f g - - ⟨hfg, hbefore⟩ ⟨hgf, hafter⟩
  have hkey := le_antisymm hfg hgf
  exact absurd (hbefore hkey) (hafter hkey.symm).asymm

theorem tryEvaluate_eq_ok {issues : List Issue} : tryEvaluate catalog c = .ok issues ↔
    (∀ entry ∈ catalog.entries, ∀ reason,
      entry.rule.check c ≠ .error (.indescribable reason)) ∧ issues = evaluate catalog c := by
  have hbreakdown : ∀ entry : CatalogEntry, entry.breakdown? c = none ↔
      ∀ reason, entry.rule.check c ≠ .error (.indescribable reason) := by
    intro entry
    rw [CatalogEntry.breakdown?]
    split <;> simp_all
  rw [tryEvaluate]
  cases hfind : catalog.entries.findSome? (·.breakdown? c) with
  | none =>
    have hnone := List.findSome?_eq_none_iff.1 hfind
    simp only [hbreakdown] at hnone
    constructor
    · exact fun h => ⟨hnone, (Except.ok.inj h).symm⟩
    · rintro ⟨-, rfl⟩
      rfl
  | some reason =>
    obtain ⟨entry, hentry, hsome⟩ := List.exists_of_findSome?_eq_some hfind
    simp only [reduceCtorEq, false_iff, not_and]
    intro hnone
    simp [(hbreakdown entry).2 (hnone entry hentry)] at hsome

end Findings

/-- There is exactly one listing of what the rules in force find, each finding once and in the order
of reports. The evaluation gives the issues of that listing, unless a rule fails with something that
cannot be described: then it gives nothing. -/
theorem tryEvaluate_lists_findings (catalog : Catalog) (c : Context) :
    (∃! listing, InReportOrder catalog c listing) ∧
      ∀ issues, tryEvaluate catalog c = .ok issues ↔
        (∀ entry ∈ catalog.entries, ∀ reason,
          entry.rule.check c ≠ .error (.indescribable reason)) ∧
        ∃ listing, InReportOrder catalog c listing ∧ issues = listing.map (·.issue) := by
  refine ⟨⟨_, inReportOrder_sortedBy, fun other h => h.unique inReportOrder_sortedBy⟩, ?_⟩
  intro issues
  rw [tryEvaluate_eq_ok, evaluate_eq_findings]
  refine and_congr_right fun _ => ⟨fun h => ⟨_, inReportOrder_sortedBy, h⟩, ?_⟩
  rintro ⟨listing, hlisting, rfl⟩
  rw [hlisting.unique inReportOrder_sortedBy]

/-- A rule that finds something on the first line, and one that fails with an object whose member
`toString` keeps it from being described. -/
def unevenCatalog : Catalog where
  entries := [
    ⟨.ofCheck "steady" "Steady" .bestPractices .low "Finds the first line."
      fun _ => [⟨.ofNat 1, "found", none, none⟩], .low, 0⟩,
    ⟨⟨"explodes", "Explodes", .bestPractices, .high, "Fails.",
      fun _ => .error (.ofValue (.object [("toString", .bool true)]))⟩, .high, 1⟩]
  thresholds := .standard
  policy := ⟨Configuration.empty.resolvedWeights, Configuration.empty.resolvedDeduction⟩

/-- The second rule of `unevenCatalog` takes the finding of the first one with it. -/
theorem finding_lost_to_failure :
    ∃ outline, Outline.ofUnit oneFunction = .ok outline ∧
      ∃ f, unevenCatalog.Finds ⟨oneFunction, outline, .standard⟩ f ∧ f.issue.message = "found" ∧
        (∃ listing, InReportOrder unevenCatalog ⟨oneFunction, outline, .standard⟩ listing ∧
          f ∈ listing) ∧
        ∀ issues, tryEvaluate unevenCatalog ⟨oneFunction, outline, .standard⟩ ≠ .ok issues := by
  have haccepted : (Outline.ofUnit oneFunction).toOption.isSome = true := by decide +kernel
  obtain ⟨outline, houtline⟩ := Option.isSome_iff_exists.1 haccepted
  obtain ⟨⟨listing, hlisting, -⟩, hok⟩ :=
    tryEvaluate_lists_findings unevenCatalog ⟨oneFunction, outline, .standard⟩
  have hfinds : unevenCatalog.Finds ⟨oneFunction, outline, .standard⟩
      ⟨⟨⟨"steady", "Steady", .bestPractices, .low, .ofNat 1, "found", none, none⟩, 0⟩, 0, 0⟩ := by
    refine ⟨_, _, rfl, rfl, .found rfl ?_, rfl⟩
    simpa using ⟨1, le_refl 1, rfl⟩
  refine ⟨outline, toOption_eq_some.1 houtline, _, hfinds, rfl,
    ⟨listing, hlisting, (hlisting.complete _).2 hfinds⟩, ?_⟩
  intro issues hissues
  have hdescribed := ((hok issues).1 hissues).1
  exact hdescribed _ (List.mem_cons_of_mem _ List.mem_cons_self) _ rfl

end CodeGrade
