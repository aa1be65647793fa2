import CodeGrade.Config.Validation
import CodeGrade.FileTree.Basic
import CodeGrade.Json.Parser

/-!
# Configuration files

A configuration is kept in a file as JSON.
-/

namespace CodeGrade

/-- The configuration in a file, or all problems of the first step that shows any. -/
def Configuration.load (fs : FileSystem) (path : String) : Except (List Problem) Configuration :=
  match fs.readText path with
  | .error fault => .error [.unreadable path fault.message]
  | .ok text =>
    match Json.parse? text with
    | none => .error [.notJson path]
    | some value => Configuration.validate (some value)

end CodeGrade
