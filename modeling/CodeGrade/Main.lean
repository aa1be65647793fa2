import CodeGrade.CommandLine.Command
import CodeGrade.Moment
import Std.Time.DateTime.Timestamp

/-!
# The program

Loads the files that the arguments name, runs the command on them, and writes what it gives.
-/

namespace CodeGrade

/-- Whether a path leads to itself, and not through a link to something else or nowhere. -/
def isDirect (path : String) : IO Bool := do
  match ← (IO.FS.realPath path).toBaseIO with
  | .ok real => return real.toString == path
  | .error _ => return false

/-- What stands at a path, links in the path being followed; with everything below it, if `deep`.
Only the Python files below it, and the file at the path itself if `withText`, have their text. -/
partial def loadNode (path : String) (deep withText : Bool) : IO (Option FileNode) := do
  match ← (IO.FS.realPath path).toBaseIO with
  | .error _ => return none
  | .ok real =>
    match (← real.metadata).type with
    | .dir =>
      match ← (real.readDir).toBaseIO with
      | .error _ => return some (.directory false [])
      | .ok found =>
        let mut entries := []
        for entry in if deep then found else #[] do
          let name := entry.fileName
          let child := real.toString ++ "/" ++ name
          if skippedDirectories.contains name then continue
          if !(← isDirect child) then
            entries := FileNode.setEntry name (.link child) entries
          else if let some node ← loadNode child true (Path.isPython child) then
            entries := FileNode.setEntry name node entries
        return some (.directory true entries)
    | .file =>
      if withText then
        match ← (IO.FS.readBinFile path).toBaseIO with
        | .ok bytes => return some (.file true bytes.toList)
        | .error _ => return some (.file false [])
      else return some (.file true [])
    | _ => return none

/-- Adds what stands at a path, and on the way to it. -/
def loadPath (deep withText : Bool) (fs : FileSystem) (path : String) : IO FileSystem := do
  let mut fs := fs
  let names := Path.parts (fs.resolve path)
  for count in List.range (names.length + 1) do
    let here := names.take count
    let isLast := count == names.length
    unless !isLast && (fs.root.at? here).isSome do
      if let some node ← loadNode (fs.display here) (isLast && deep) (isLast && withText) then
        fs := { fs with root := FileNode.put node here fs.root }
  return fs

/-- The paths of the reports in a directory. -/
def reportPaths (directory : String) : List String :=
  ["quality-report.md", "quality-report.json"].map (Path.join directory)

/-- The files that the arguments name. -/
def loadFiles (args : List String) : IO FileSystem := do
  let cwd := Path.parts (← IO.currentDir).toString
  let fs : FileSystem := ⟨"", cwd, .directory true []⟩
  match Command.read args with
  | .analyze arguments =>
    let fs ← (arguments.outputDir :: reportPaths arguments.outputDir).foldlM (loadPath false false) fs
    let fs ← loadPath true true fs arguments.path
    match arguments.config with
    | some config => loadPath false true fs config
    | none => return fs
  | _ => return fs

/-- Writes a file that a run has changed. -/
def storeFile (old new : FileSystem) (path : String) : IO Unit := do
  match old.readText path, new.readText path with
  | .ok before, .ok after =>
    if before != after then IO.FS.writeFile path (String.ofList after)
  | _, .ok after => IO.FS.writeFile path (String.ofList after)
  | _, .error _ => return

/-- Writes the files that a run has changed. -/
def storeFiles (args : List String) (old new : FileSystem) : IO Unit := do
  match Command.read args with
  | .analyze arguments =>
    match new.stat arguments.outputDir with
    | .ok node => if node.isDirectory then IO.FS.createDirAll arguments.outputDir
    | .error _ => return
    (reportPaths arguments.outputDir).forM (storeFile old new)
  | _ => return

/-- The present moment. -/
def Moment.now : IO Moment := do
  return ⟨(← Std.Time.Timestamp.now).toMillisecondsSinceUnixEpoch.val.toNat⟩

end CodeGrade

open CodeGrade

/-- Runs the program. -/
def main (args : List String) : IO UInt32 := do
  let files ← loadFiles args
  let now ← Moment.now
  let stdout ← IO.getStdout
  let run := runCommand files
    { logLevel := LogThreshold.ofSetting (← IO.getEnv "QUALITY_GAUGE_LOG_LEVEL")
      logTime := now.clock
      reportTime := now.text
      color := ← stdout.isTty }
    args
  storeFiles args files run.files
  stdout.putStr run.stdout
  (← IO.getStderr).putStr run.stderr
  return UInt32.ofNat run.exitCode
