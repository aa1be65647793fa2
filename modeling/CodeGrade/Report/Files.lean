import CodeGrade.FileTree.Basic
import CodeGrade.Json.Printer
import CodeGrade.Report.Markdown

/-!
# Report files

Reports are written to files in an output directory, which is made if need be.

## Main definitions

* `jsonDocument`: reports as a JSON document.
* `writeMarkdown`, `writeJson`: write the two documents.
-/

namespace CodeGrade

/-- Why reports could not be written. -/
inductive WriteFault where
  | file (fault : FileFault)
  | bar (fault : BarFault)

/-- The wording of a failed attempt to write reports. -/
def WriteFault.message : WriteFault → String
  | file fault => fault.message
  | bar fault => fault.message

/-- The JSON document of reports that were made at a given time. -/
def jsonDocument (time : String) (reports : List Json) : String :=
  (Json.object [("generatedAt", .string time), ("reports", .array reports)]).pretty

/-- Writes the Markdown document of reports; gives its path. -/
def writeMarkdown (fs : FileSystem) (directory : String) (reports : List Report) :
    Except WriteFault (FileSystem × String) := do
  let path := Path.join directory "quality-report.md"
  let fs ← (fs.makeDirectories directory).mapError WriteFault.file
  let text ← (markdown reports).mapError WriteFault.bar
  let fs ← (fs.writeText path text).mapError WriteFault.file
  .ok (fs, path)

/-- Writes the JSON document of reports that were made at a given time; gives its path. -/
def writeJson (fs : FileSystem) (directory time : String) (reports : List Json) :
    Except WriteFault (FileSystem × String) := do
  let path := Path.join directory "quality-report.json"
  let fs ← (fs.makeDirectories directory).mapError WriteFault.file
  let fs ← (fs.writeText path (jsonDocument time reports)).mapError WriteFault.file
  .ok (fs, path)

end CodeGrade
