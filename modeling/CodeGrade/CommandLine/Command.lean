import CodeGrade.CommandLine.Help
import CodeGrade.CommandLine.Options
import CodeGrade.CommandLine.Suggestion
import CodeGrade.Config.File

/-!
# The command line

What the program does for its arguments: which command they ask for, and the outcome of it.

## Main definitions

* `Command`, `Command.read`: what the arguments ask for.
* `CommandRun`, `runCommand`: everything the program does.
-/

namespace CodeGrade

/-- Arguments that ask for nothing the program can do. -/
inductive UsageFault where
  | missingArgument (name : String)
  | missingValue (flags : String)
  | unknownOption (option : String) (known : List String)
  | unknownCommand (command : String) (known : List String)
  deriving DecidableEq, Repr

/-- The wording of a misuse. -/
def UsageFault.message : UsageFault → String
  | missingArgument name => s!"error: missing required argument '{name}'"
  | missingValue flags => s!"error: option '{flags}' argument missing"
  | unknownOption option known =>
    s!"error: unknown option '{option}'" ++
      if ['-', '-'].isPrefixOf option.toList then suggestion option known else ""
  | unknownCommand command known =>
    s!"error: unknown command '{command}'" ++ suggestion command known

/-- The arguments of the command that analyses files. -/
structure AnalyzeArguments where
  path : String
  config : Option String
  outputDir : String
  format : String
  minScore : Option String
  deriving DecidableEq, Repr

/-- What arguments ask for. -/
inductive Command where
  | version
  | help (text : String)
  /-- The help, because nothing was asked for that could be done. -/
  | usage
  | misuse (fault : UsageFault)
  | analyze (arguments : AnalyzeArguments)
  deriving DecidableEq, Repr

/-- The options of the program. -/
def programOptions : List OptionSpec := [⟨"--version", some "-V", none⟩]

/-- The options of the command that analyses files. -/
def analyzeOptions : List OptionSpec :=
  [⟨"--config", none, some "file"⟩, ⟨"--output-dir", none, some "dir"⟩,
    ⟨"--format", none, some "format"⟩, ⟨"--min-score", none, some "score"⟩]

/-- The long forms of options, that for help included. -/
def longForms (specs : List OptionSpec) : List String := specs.map (·.long) ++ ["--help"]

/-- Whether arguments ask for help. -/
def asksForHelp (args : List String) : Bool := args.any fun arg => arg = "-h" || arg = "--help"

/-- What the arguments after `analyze` ask for: the operands read so far, and what was unknown so
far. -/
def Command.readAnalyze (operands unknown : List String) : Command :=
  match readOptions analyzeOptions false unknown with
  | .error (.flag _) => .usage
  | .error (.missingValue spec) => .misuse (.missingValue spec.flags)
  | .ok reading =>
    if asksForHelp reading.unknown then .help analyzeHelp
    else
      match reading.unknown, operands ++ reading.operands with
      | option :: _, _ =>
        .misuse (.unknownOption option (longForms analyzeOptions ++ longForms programOptions))
      | [], [] => .misuse (.missingArgument "path")
      | [], path :: _ =>
        .analyze {
          path
          config := reading.value? "--config"
          outputDir := (reading.value? "--output-dir").getD "."
          format := (reading.value? "--format").getD "console"
          minScore := reading.value? "--min-score" }

/-- What the arguments after `help` ask for. -/
def Command.readHelp : List String → Command
  | [] => .help mainHelp
  | command :: _ =>
    if command = "" then .help mainHelp
    else if command = "analyze" then .help analyzeHelp
    else .usage

/-- What arguments ask for. -/
def Command.read (args : List String) : Command :=
  match readOptions programOptions false args with
  | .error _ => .version
  | .ok reading =>
    match reading.operands, reading.unknown with
    | "analyze" :: operands, unknown => readAnalyze operands unknown
    | "help" :: operands, _ => readHelp operands
    | [], [] => .usage
    | operands, unknown =>
      if asksForHelp unknown then .help mainHelp
      else
        match operands, unknown with
        | command :: _, _ => .misuse (.unknownCommand command ["analyze", "help"])
        | [], option :: _ => .misuse (.unknownOption option (longForms programOptions))
        | [], [] => .usage

/-! ### Running a command -/

/-- Everything the program does: the exit code, what it writes to the two streams, and the files
after it. -/
structure CommandRun where
  exitCode : Nat
  stdout : String
  stderr : String
  files : FileSystem

/-- The surroundings of a run: the level of the log, the time that log entries bear, and the time
that reports bear. -/
structure Surroundings where
  logLevel : LogThreshold
  logTime : String
  reportTime : String
  color : Bool

/-- Lines with their ends. -/
def asLines (lines : List String) : String := String.join (lines.map (· ++ "\n"))

/-- What is said about a rejected configuration. -/
def rejectionLines (problems : List Problem) : List String :=
  "Invalid configuration:" :: problems.map fun problem => "  - " ++ problem.message

/-- What is said about a scan that was given up. -/
def ScanFault.lines : ScanFault → List String
  | .configuration problems => rejectionLines problems
  | .file fault => ["Error: " ++ fault.message]
  | .bar fault => ["Error: " ++ fault.message]

/-- Why the arguments of an analysis were not accepted. -/
inductive ArgumentFault where
  | option (fault : OptionFault)
  | configuration (problems : List Problem)

/-- What is said about arguments that were not accepted. -/
def ArgumentFault.lines : ArgumentFault → List String
  | .option fault => ["Error: " ++ fault.message]
  | .configuration problems => rejectionLines problems

/-- What the arguments of an analysis ask a scan to do. The format is read first, then the score,
then the configuration. -/
def AnalyzeArguments.options (arguments : AnalyzeArguments) (fs : FileSystem) (s : Surroundings) :
    Except ArgumentFault ScanOptions := do
  let formats ← (Format.readList arguments.format).mapError .option
  let minScore ← (arguments.minScore.mapM readMinScore).mapError .option
  let config ← (arguments.config.mapM (Configuration.load fs)).mapError .configuration
  .ok {
    target := arguments.path
    outputDir := arguments.outputDir
    formats
    minScore
    config := config.map Configuration.toJson
    color := s.color
    time := s.reportTime }

/-- Analyses files. The exit code tells whether they passed. -/
def runAnalyze (fs : FileSystem) (s : Surroundings) (arguments : AnalyzeArguments) : CommandRun :=
  match arguments.options fs s with
  | .error fault => ⟨1, "", asLines fault.lines, fs⟩
  | .ok options =>
    let run := scan fs options
    let log := logLines s.logLevel s.color s.logTime run.log
    match run.result with
    | .error fault => ⟨1, asLines run.printed, asLines (log ++ fault.lines), run.files⟩
    | .ok result => ⟨if result.passed then 0 else 1, asLines run.printed, asLines log, run.files⟩

/-- Everything the program does for its arguments. -/
def runCommand (fs : FileSystem) (s : Surroundings) (args : List String) : CommandRun :=
  match Command.read args with
  | .version => ⟨0, version ++ "\n", "", fs⟩
  | .help text => ⟨0, text, "", fs⟩
  | .usage => ⟨1, "", mainHelp, fs⟩
  | .misuse fault => ⟨1, "", fault.message ++ "\n", fs⟩
  | .analyze arguments => runAnalyze fs s arguments

end CodeGrade
