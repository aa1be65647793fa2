import CodeGrade.FileTree.Walk
import CodeGrade.Report.Analysis
import CodeGrade.Report.Console
import CodeGrade.Report.Files

/-!
# Scanning files

A scan analyses all Python files that a path stands for, shows and writes the reports, and decides
whether they pass a gate.

## Main definitions

* `Format`: the formats of reports.
* `ScanOptions`, `ScanRun`: what a scan is asked to do, and everything it does.
* `scan`: the scan.
-/

namespace CodeGrade

/-- The formats of reports. -/
inductive Format where
  | console
  | markdown
  | json
  deriving DecidableEq, Repr

namespace Format

/-- The formats in order. -/
def all : List Format := [console, markdown, json]

/-- The name of a format. -/
def name : Format → String
  | console => "console"
  | markdown => "markdown"
  | json => "json"

/-- The format with a given name. -/
def ofName? (name : String) : Option Format := all.find? (·.name = name)

end Format

/-- What a scan is asked to do. `time` is the time that the reports bear. -/
structure ScanOptions where
  target : String
  outputDir : String
  formats : List Format
  minScore : Option Float
  config : Option Json
  color : Bool
  time : String

/-- Why a scan was given up. -/
inductive ScanFault where
  | configuration (problems : List Problem)
  | file (fault : FileFault)
  | bar (fault : BarFault)

/-- What a scan found. -/
structure ScanResult where
  reports : List Report
  passed : Bool
  written : List String

/-- Everything a scan does: what it logs and prints, the files after it, and its result, or why it
was given up. -/
structure ScanRun where
  log : List LogEntry
  printed : List String
  files : FileSystem
  result : Except ScanFault ScanResult

/-- The name of a file relative to a directory. -/
def relativeName (base path : String) : String :=
  if base = "/" then (Path.below? "" path).getD path else (Path.below? base path).getD path

/-- The report of a file. A file that cannot be read has no lines. -/
def reportFile (fs : FileSystem) (catalog : Catalog) (base path : String) : Report :=
  let name := relativeName base path
  match fs.readText path with
  | .ok text => analyze ⟨name, splitLines text⟩ catalog
  | .error fault =>
    degradedReport ⟨name, []⟩ catalog (LineNumber.ofNat 0) ("cannot read file: " ++ fault.message)

/-- What the log says about the report of a file. -/
def reportFileLog (fs : FileSystem) (catalog : Catalog) (base path : String) : List LogEntry :=
  match fs.readText path with
  | .ok text => analysisLog ⟨relativeName base path, splitLines text⟩ catalog
  | .error fault =>
    [{ level := .warn
       message := "Could not read " ++ path
       data := some (.object [("error", .string fault.message)]) }]

/-- The directory that the names of files are relative to. -/
def baseDirectory (fs : FileSystem) (root : String) : String :=
  match fs.stat root with
  | .ok node => if node.isDirectory then root else Path.parent root
  | .error _ => Path.parent root

/-- Whether all reports pass a gate; without a gate they do. -/
def allPass (minScore : Option Float) (reports : List Report) : Bool :=
  minScore.all fun minScore => reports.all (·.passes minScore)

/-- What a scan prints about its gate. -/
def gateLines (color : Bool) (minScore : Option Float) (passed : Bool) : List String :=
  match minScore with
  | none => []
  | some minScore =>
    let least := Decimal.text minScore
    if passed then [paint color [.green] s!"Quality gate passed (minimum {least})"]
    else [paint color [.red] s!"Quality gate failed (minimum {least}, no critical issues)"]

/-- Writes the documents that are asked for, in order; gives the files after each step, and the paths
written. -/
def writeDocuments (fs : FileSystem) (options : ScanOptions) (reports : List Report) :
    FileSystem × Except WriteFault (List String) :=
  let markdown (fs : FileSystem) :=
    if options.formats.contains .markdown then
      (writeMarkdown fs options.outputDir reports).map fun (fs, path) => (fs, [path])
    else .ok (fs, [])
  let json (fs : FileSystem) :=
    if options.formats.contains .json then
      (writeJson fs options.outputDir options.time (reports.map Report.toJson)).map
        fun (fs, path) => (fs, [path])
    else .ok (fs, [])
  match markdown fs with
  | .error fault => (fs, .error fault)
  | .ok (fs, first) =>
    match json fs with
    | .error fault => (fs, .error fault)
    | .ok (fs, second) => (fs, .ok (first ++ second))

/-- Shows and writes the reports of a scan. -/
def publish (fs : FileSystem) (options : ScanOptions) (log : List LogEntry)
    (reports : List Report) : ScanRun :=
  let shown :=
    if options.formats.contains .console then reports.map (Report.console options.color) else []
  match writeDocuments fs options reports with
  | (files, .error (.file fault)) => ⟨log, shown, files, .error (.file fault)⟩
  | (files, .error (.bar fault)) => ⟨log, shown, files, .error (.bar fault)⟩
  | (files, .ok written) =>
    let passed := allPass options.minScore reports
    let notice :=
      if written.isEmpty then []
      else
        let paths := "\n".intercalate (written.map ("  " ++ ·))
        [paint options.color [.gray] s!"Reports written to:\n{paths}"]
    { log
      files
      printed := shown ++ notice ++ gateLines options.color options.minScore passed
      result := .ok ⟨reports, passed, written⟩ }

/-- Scans files. A configuration that is rejected and a path that leads nowhere end the scan before
it has done anything. -/
def scan (fs : FileSystem) (options : ScanOptions) : ScanRun :=
  let root := fs.resolve options.target
  match Catalog.build options.config with
  | .error problems => ⟨[], [], fs, .error (.configuration problems)⟩
  | .ok catalog =>
    match fs.collectPython root with
    | .error fault => ⟨[], [], fs, .error (.file fault)⟩
    | .ok paths =>
      let base := baseDirectory fs root
      let count := paths.length
      let log := fs.collectLog root ++
        [{ level := .info, message := s!"Analyzing {count} file(s) under {root}" }] ++
        paths.flatMap (reportFileLog fs catalog base)
      publish fs options log (paths.map (reportFile fs catalog base))

end CodeGrade
