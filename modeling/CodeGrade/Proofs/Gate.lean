import CodeGrade.Proofs.MatchLines
import CodeGrade.Scan
import Mathlib

/-!
# The gate of a scan

A scan passes its gate if every file it collected was read, taken apart and judged, no rule that is
critical under the configuration found anything, and no score is below the least one. A file that
cannot be read or taken apart has a critical issue of its own, which no configuration can switch off
or make less grave, so it fails the scan whatever the others are like.

## Main definitions

* `SourceUnit.Clears`: what a gate asks of a source unit.
* `FileSystem.Clears`: what a gate asks of a file.
* `FileSystem.Unusable`: a file that cannot be read or taken apart.
-/

namespace CodeGrade

/-- What a gate asks of a source unit: it can be taken apart, the rules that are critical in the
catalog find nothing, and the score is not below the least one. -/
structure SourceUnit.Clears (unit : SourceUnit) (catalog : Catalog) (minScore : Float)
    (outline : Outline) : Prop where
  accepted : Outline.ofUnit unit = .ok outline
  harmless : ∀ entry ∈ catalog.entries, entry.severity = .critical →
    entry.rule.check ⟨unit, outline, catalog.thresholds⟩ = .ok []
  score : minScore ≤ overallScore (scoreCategories catalog.policy
    (evaluate catalog ⟨unit, outline, catalog.thresholds⟩))

/-- What a gate asks of a file: it can be read, and its text is as a gate asks. -/
def FileSystem.Clears (fs : FileSystem) (catalog : Catalog) (minScore : Float)
    (base path : String) : Prop :=
  ∃ text outline, fs.readText path = .ok text ∧
    SourceUnit.Clears ⟨relativeName base path, splitLines text⟩ catalog minScore outline

/-- A file that cannot be read, or whose text cannot be taken apart. -/
inductive FileSystem.Unusable (fs : FileSystem) (base path : String) : Prop where
  | unreadable {fault : FileFault} (h : fs.readText path = .error fault)
  | unparsable {text : List Char} {fault : Fault} (hread : fs.readText path = .ok text)
      (h : Outline.ofUnit ⟨relativeName base path, splitLines text⟩ = .error fault)

/-! ### Reports and gates -/

theorem Report.passes_ofIssues {source : String} {issues : List Issue} {metrics : Metrics}
    {policy : Policy Float} {minScore : Float} :
    (Report.ofIssues source issues metrics policy).passes minScore = true ↔
      minScore ≤ overallScore (scoreCategories policy issues) ∧
        ∀ issue ∈ issues, issue.severity ≠ .critical := by
  have hcritical : (Counts.ofIssues issues).critical = 0 ↔
      ∀ issue ∈ issues, issue.severity ≠ .critical := by
    simp [Counts.ofIssues, countOf]
  rw [Report.passes, passesGate, Bool.and_eq_true, beq_iff_eq]
  exact and_congr decide_eq_true_iff hcritical

/-- The report of a unit that cannot be taken apart passes no gate: its issue is critical under
every policy. -/
theorem degradedReport_fails (unit : SourceUnit) (catalog : Catalog) (line : LineNumber)
    (reason : String) (minScore : Float) :
    (degradedReport unit catalog line reason).passes minScore = false := by
  rw [← Bool.not_eq_true, degradedReport, Report.passes_ofIssues]
  rintro ⟨-, hcritical⟩
  exact hcritical _ (List.mem_singleton_self _) rfl

section Builtin

variable {catalog : Catalog} {unit : SourceUnit} {outline : Outline}

/-- There is no critical issue if the rules that are critical in the catalog find nothing. -/
theorem not_critical_iff (hrules : ∀ entry ∈ catalog.entries, entry.rule ∈ builtinRules)
    (houtline : Outline.ofUnit unit = .ok outline) :
    (∀ issue ∈ evaluate catalog ⟨unit, outline, catalog.thresholds⟩,
        issue.severity ≠ .critical) ↔
      ∀ entry ∈ catalog.entries, entry.severity = .critical →
        entry.rule.check ⟨unit, outline, catalog.thresholds⟩ = .ok [] := by
  constructor
  · intro hissues entry hentry hcritical
    obtain ⟨matched, hcheck, hwithin⟩ := within_of_check houtline (hrules entry hentry)
    cases matched with
    | nil => exact hcheck
    | cons m rest =>
      have hissue : entry.issue m ∈ evaluate catalog ⟨unit, outline, catalog.thresholds⟩ := by
        refine mem_evaluate.2 ⟨entry, hentry, ?_⟩
        rw [CatalogEntry.issues_eq hcheck hwithin]
        exact List.mem_cons_self
      exact absurd hcritical (hissues _ hissue)
  · intro hsilent issue hissue hcritical
    obtain ⟨entry, hentry, hissue⟩ := mem_evaluate.1 hissue
    obtain ⟨matched, hcheck, hwithin⟩ := within_of_check houtline (hrules entry hentry)
    rw [CatalogEntry.issues_eq hcheck hwithin] at hissue
    obtain ⟨m, hm, rfl⟩ := List.mem_map.1 hissue
    have hnone := Except.ok.inj (hcheck.symm.trans (hsilent entry hentry hcritical))
    rw [hnone] at hm
    cases hm

theorem passes_analyze_iff (hrules : ∀ entry ∈ catalog.entries, entry.rule ∈ builtinRules)
    (minScore : Float) : (analyze unit catalog).passes minScore = true ↔
      ∃ outline, unit.Clears catalog minScore outline := by
  cases houtline : Outline.ofUnit unit with
  | error fault =>
    simp only [analyze, houtline, degradedReport_fails, Bool.false_eq_true, false_iff]
    rintro ⟨outline, hclears⟩
    cases houtline.symm.trans hclears.accepted
  | ok outline =>
    simp only [analyze, houtline, Report.passes_ofIssues, not_critical_iff hrules houtline]
    constructor
    · rintro ⟨hscore, hharmless⟩
      exact ⟨outline, houtline, hharmless, hscore⟩
    · rintro ⟨outline', hclears⟩
      obtain rfl := Except.ok.inj (houtline.symm.trans hclears.accepted)
      exact ⟨hclears.score, hclears.harmless⟩

theorem passes_reportFile_iff (hrules : ∀ entry ∈ catalog.entries, entry.rule ∈ builtinRules)
    (fs : FileSystem) (minScore : Float) (base path : String) :
    (reportFile fs catalog base path).passes minScore = true ↔
      fs.Clears catalog minScore base path := by
  cases hread : fs.readText path with
  | error fault =>
    simp only [reportFile, hread, degradedReport_fails, Bool.false_eq_true, false_iff]
    rintro ⟨text, outline, htext, -⟩
    cases hread.symm.trans htext
  | ok text =>
    simp only [reportFile, hread, passes_analyze_iff hrules]
    constructor
    · rintro ⟨outline, hclears⟩
      exact ⟨text, outline, hread, hclears⟩
    · rintro ⟨text', outline, htext, hclears⟩
      obtain rfl := Except.ok.inj (hread.symm.trans htext)
      exact ⟨outline, hclears⟩

end Builtin

theorem FileSystem.Unusable.not_clears {fs : FileSystem} {base path : String}
    (h : fs.Unusable base path) (catalog : Catalog) (minScore : Float) :
    ¬fs.Clears catalog minScore base path := by
  rintro ⟨text, outline, hread, hclears⟩
  cases h with
  | unreadable hfault => cases hread.symm.trans hfault
  | unparsable htext hfault =>
    obtain rfl := Except.ok.inj (hread.symm.trans htext)
    cases hfault.symm.trans hclears.accepted

/-! ### The result of a scan -/

theorem allPass_iff {minScore : Option Float} {reports : List Report} :
    allPass minScore reports = true ↔
      ∀ least ∈ minScore, ∀ report ∈ reports, report.passes least = true := by
  cases minScore <;> simp [allPass]

/-- A scan that gets as far as its reports has a result if it can write its documents. -/
theorem result_publish {fs : FileSystem} {options : ScanOptions} {log : List LogEntry}
    {reports : List Report} {result : ScanResult} :
    (publish fs options log reports).result = .ok result ↔
      ∃ written, (writeDocuments fs options reports).2 = .ok written ∧
        result = ⟨reports, allPass options.minScore reports, written⟩ := by
  rw [publish]
  split
  · rename_i hwrite
    simp [hwrite]
  · rename_i hwrite
    simp [hwrite]
  · rename_i hwrite
    simp [hwrite, eq_comm]

theorem result_scan {fs : FileSystem} {options : ScanOptions} {catalog : Catalog}
    {paths : List String} (hbuild : Catalog.build options.config = .ok catalog)
    (hpaths : fs.collectPython (fs.resolve options.target) = .ok paths) {result : ScanResult} :
    (scan fs options).result = .ok result ↔
      ∃ written, (writeDocuments fs options (paths.map
          (reportFile fs catalog (baseDirectory fs (fs.resolve options.target))))).2 =
            .ok written ∧
        result = ⟨paths.map (reportFile fs catalog (baseDirectory fs (fs.resolve options.target))),
          allPass options.minScore (paths.map
            (reportFile fs catalog (baseDirectory fs (fs.resolve options.target)))), written⟩ := by
  simp only [scan, hbuild, hpaths, result_publish]

/-- A scan under an accepted configuration, of a path that leads somewhere, has a result if it can
write its documents. It has passed if and only if every file it collected clears the gate, where
there is one; a single file that cannot be used fails it. -/
theorem scan_passes_iff_clears {fs : FileSystem} {options : ScanOptions} {catalog : Catalog}
    {paths : List String} (hbuild : Catalog.build options.config = .ok catalog)
    (hpaths : fs.collectPython (fs.resolve options.target) = .ok paths) :
    let base := baseDirectory fs (fs.resolve options.target)
    ((∃ result, (scan fs options).result = .ok result) ↔
        ∃ written, (writeDocuments fs options
          (paths.map (reportFile fs catalog base))).2 = .ok written) ∧
      ∀ result, (scan fs options).result = .ok result →
        (result.passed = true ↔
          ∀ minScore ∈ options.minScore, ∀ path ∈ paths, fs.Clears catalog minScore base path) ∧
        ∀ minScore ∈ options.minScore, ∀ path ∈ paths, fs.Unusable base path →
          result.passed = false := by
  intro base
  have hpassed : ∀ result, (scan fs options).result = .ok result → (result.passed = true ↔
      ∀ minScore ∈ options.minScore, ∀ path ∈ paths, fs.Clears catalog minScore base path) := by
    intro result hresult
    obtain ⟨written, -, rfl⟩ := (result_scan hbuild hpaths).1 hresult
    simp only [allPass_iff, List.forall_mem_map,
      passes_reportFile_iff (Catalog.rule_mem_of_build hbuild)]
    rfl
  refine ⟨?_, fun result hresult => ⟨hpassed result hresult, ?_⟩⟩
  · constructor
    · rintro ⟨result, hresult⟩
      obtain ⟨written, hwritten, -⟩ := (result_scan hbuild hpaths).1 hresult
      exact ⟨written, hwritten⟩
    · rintro ⟨written, hwritten⟩
      exact ⟨_, (result_scan hbuild hpaths).2 ⟨written, hwritten, rfl⟩⟩
  · intro minScore hminScore path hpath hunusable
    rw [← Bool.not_eq_true, hpassed result hresult]
    intro hclears
    exact hunusable.not_clears catalog minScore (hclears minScore hminScore path hpath)

/-! ### A file that cannot be read -/

theorem FileSystem.follow_nil (root : FileNode) (mount : String) (links : ℕ)
    (here : List String) : FileSystem.follow root mount links here [] = .ok here := by
  rw [FileSystem.follow]

/-- A name that leads to a file in a directory is followed to that file. -/
theorem FileSystem.follow_file {root : FileNode} {here : List String} {name : String}
    {readable readable' : Bool} {entries : List (String × FileNode)} {bytes : List UInt8}
    (hhere : root.at? here = some (.directory readable entries))
    (hname : name ≠ "." ∧ name ≠ "..")
    (hfile : root.at? (here ++ [name]) = some (.file readable' bytes)) (mount : String)
    (links : ℕ) : FileSystem.follow root mount links here [name] = .ok (here ++ [name]) := by
  rw [FileSystem.follow]
  simp only [hhere, hname.1, hname.2, hfile, FileSystem.follow_nil, if_false]

/-- A directory with two files, the first of which cannot be read. -/
def lockedTree : FileSystem where
  mount := "/work"
  cwd := []
  root := .directory true [("locked.py", .file false []), ("open.py", .file true [])]

/-- A scan of that directory with the lowest of gates, and with nothing deducted for any issue. -/
def lenientScan : ScanOptions where
  target := "."
  outputDir := "."
  formats := []
  minScore := some 0.0
  config := some (.object [("deductions", .object [("critical", .number 0.0),
    ("high", .number 0.0), ("medium", .number 0.0), ("low", .number 0.0)])])
  color := false
  time := ""

theorem collectPython_lockedTree :
    lockedTree.collectPython (lockedTree.resolve ".") =
      .ok ["/work/locked.py", "/work/open.py"] := by
  have hresolve : lockedTree.resolve "." = "/work" := by decide +kernel
  have habsolute : lockedTree.absolute? "/work" = some [] := by decide +kernel
  have hnode : lockedTree.node "/work" = .ok lockedTree.root := by
    simp only [FileSystem.node, FileSystem.locate, habsolute, FileSystem.follow_nil]
    rfl
  have hbelow : lockedTree.walkPython "/work" = ["/work/locked.py", "/work/open.py"] := by
    simp only [FileSystem.walkPython, FileSystem.list, FileSystem.blame, hnode]
    decide +kernel
  rw [hresolve, FileSystem.collectPython, hbelow, FileSystem.stat, FileSystem.blame, hnode,
    List.mergeSort_of_pairwise (by decide +kernel)]
  rfl

theorem unusable_lockedTree (base : String) : lockedTree.Unusable base "/work/locked.py" := by
  have habsolute : lockedTree.absolute? "/work/locked.py" = some ["locked.py"] := by
    decide +kernel
  have hnode : lockedTree.node "/work/locked.py" = .ok (.file false []) := by
    simp only [FileSystem.node, FileSystem.locate, habsolute]
    rw [FileSystem.follow_file rfl (by decide) rfl]
    rfl
  have hread : lockedTree.readText "/work/locked.py" =
      .error ⟨.denied, "open", some "/work/locked.py"⟩ := by
    simp only [FileSystem.readText, FileSystem.blame, hnode]
    rfl
  exact .unreadable hread

/-- The file that cannot be read fails the scan, though every score is above the least one. -/
theorem locked_file_fails_scan : ∃ catalog result,
    Catalog.build lenientScan.config = .ok catalog ∧
      lockedTree.collectPython (lockedTree.resolve lenientScan.target) =
        .ok ["/work/locked.py", "/work/open.py"] ∧
      (scan lockedTree lenientScan).result = .ok result ∧ result.passed = false := by
  have haccepted : (Catalog.build lenientScan.config).toOption.isSome = true := by decide +kernel
  obtain ⟨catalog, hcatalog⟩ := Option.isSome_iff_exists.1 haccepted
  have hbuild := toOption_eq_some.1 hcatalog
  obtain ⟨hresult, hpassed⟩ := scan_passes_iff_clears hbuild collectPython_lockedTree
  obtain ⟨result, hresult⟩ := hresult.2 ⟨[], rfl⟩
  exact ⟨catalog, result, hbuild, collectPython_lockedTree, hresult,
    (hpassed result hresult).2 0.0 rfl _ List.mem_cons_self (unusable_lockedTree _)⟩

end CodeGrade
