/-!
# Help texts

What the command line says about itself.
-/

namespace CodeGrade

/-- The version of the program. -/
def version : String := "1.0.0"

/-- The help of the program. -/
def mainHelp : String := "\n".intercalate
  ["Usage: quality-gauge [options] [command]",
   "",
   "Python code quality scorer — rule-based issues, category scores and a",
   "production-readiness verdict",
   "",
   "Options:",
   "  -V, --version             output the version number",
   "  -h, --help                display help for command",
   "",
   "Commands:",
   "  analyze [options] <path>  Analyze a Python file or directory",
   "  help [command]            display help for command",
   ""]

/-- The help of the command that analyses files. -/
def analyzeHelp : String := "\n".intercalate
  ["Usage: quality-gauge analyze [options] <path>",
   "",
   "Analyze a Python file or directory",
   "",
   "Arguments:",
   "  path                 Path to a .py file or a directory",
   "",
   "Options:",
   "  --config <file>      JSON rule configuration (rule overrides, thresholds,",
   "                       weights, deductions)",
   "  --output-dir <dir>   Output directory for reports (default: \".\")",
   "  --format <format>    console, markdown, json or all (comma separated)",
   "                       (default: \"console\")",
   "  --min-score <score>  Fail when any file scores below this or has critical",
   "                       issues",
   "  -h, --help           display help for command",
   ""]

end CodeGrade
