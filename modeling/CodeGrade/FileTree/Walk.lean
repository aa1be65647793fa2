import CodeGrade.FileTree.Basic
import CodeGrade.Log
import CodeGrade.Text.Units

/-!
# Python files below a directory

All Python files below a directory, apart from those in directories that hold no sources of their
own. Symbolic links are not followed on the way, and a directory that cannot be read is skipped.

## Main definitions

* `pythonBelow`: the Python files among the entries of a directory.
* `unreadableBelow`: the directories among them that cannot be read.
* `collectPython`: the Python files that a path stands for, sorted.
-/

namespace CodeGrade

/-- The directories that are skipped. -/
def skippedDirectories : List String := ["node_modules", ".git", "__pycache__", "venv", ".venv"]

mutual

/-- The Python files among the entries of the directory at `path`, and below them. -/
def pythonBelow (path : String) : List (String × FileNode) → List String
  | [] => []
  | (name, node) :: rest =>
    (if skippedDirectories.contains name then [] else pythonAt (Path.join path name) node) ++
      pythonBelow path rest

/-- The Python files at and below the entry at `path`. -/
def pythonAt (path : String) : FileNode → List String
  | .file _ _ => if Path.isPython path then [path] else []
  | .directory readable entries => if readable then pythonBelow path entries else []
  | .link _ => []

end

mutual

/-- The directories that cannot be read among the entries of the directory at `path`, and below
them. -/
def unreadableBelow (path : String) : List (String × FileNode) → List String
  | [] => []
  | (name, node) :: rest =>
    (if skippedDirectories.contains name then [] else unreadableAt (Path.join path name) node) ++
      unreadableBelow path rest

/-- The directories that cannot be read at and below the entry at `path`. -/
def unreadableAt (path : String) : FileNode → List String
  | .directory readable entries => if readable then unreadableBelow path entries else [path]
  | _ => []

end

/-- What the log says about a directory that cannot be read. -/
def skippedEntry (path : String) (fault : FileFault) : LogEntry where
  level := .warn
  message := "Skipping unreadable directory " ++ path
  data := some (.object [("error", .string fault.message)])

namespace FileSystem

/-- The Python files below a directory; none if it cannot be read. -/
def walkPython (fs : FileSystem) (path : String) : List String :=
  match fs.list path with
  | .ok entries => pythonBelow path entries
  | .error _ => []

/-- What the log says about the way through a directory. -/
def walkLog (fs : FileSystem) (path : String) : List LogEntry :=
  match fs.list path with
  | .ok entries =>
    (unreadableBelow path entries).map fun path =>
      skippedEntry path ⟨.denied, "scandir", some path⟩
  | .error fault => [skippedEntry path fault]

/-- Whether a path leads to a file. -/
def leadsToFile : FileNode → Bool
  | .file _ _ => true
  | _ => false

/-- The Python files that a path stands for: a file itself, if it is one, or all below a directory,
sorted. -/
def collectPython (fs : FileSystem) (path : String) : Except FileFault (List String) := do
  let node ← fs.stat path
  if leadsToFile node then .ok (if Path.isPython path then [path] else [])
  else .ok ((fs.walkPython path).mergeSort fun a b => Text.unitsLe a.toList b.toList)

/-- What the log says about collecting the Python files that a path stands for. -/
def collectLog (fs : FileSystem) (path : String) : List LogEntry :=
  match fs.stat path with
  | .ok node => if leadsToFile node then [] else fs.walkLog path
  | .error _ => []

end FileSystem

end CodeGrade
