import CodeGrade.Rule.Basic
import CodeGrade.Rule.Call
import CodeGrade.Source.Scope

/-!
# Rules on the handling of errors

Handlers that catch everything, input and output that no handler guards, and files without any
handler.
-/

namespace CodeGrade

/-- Whether the code of a handler names no exception, or the one that includes all others. -/
def catchesEverything (code : List Char) : Bool :=
  match Text.afterString? "except" code with
  | none => false
  | some rest =>
    match Text.trimStart rest with
    | ':' :: _ => true
    | '(' :: inner => namesBase (Text.trimStart inner)
    | rest => namesBase rest
where
  /-- Whether the text starts with the name of the most general exception. -/
  namesBase (text : List Char) : Bool :=
    (Text.afterString? "BaseException" text).any Text.endsWord

/-- Handlers that catch everything. -/
def bareExcepts (c : Context) : List Match :=
  c.outline.lines.toList.filterMap fun line =>
    if line.keyword = some .exceptKw ∧ catchesEverything line.code then
      some {
        line := line.startLine
        message := "Using bare except: catches all exceptions including system exits"
        evidence := some (String.ofList line.code)
        suggestion := some "Catch the specific exception types you expect" }
    else none

/-- Functions of a module, by their names. -/
def moduleFunctions (owner : String) (names : List String) : List Callee :=
  names.map fun name => .dotted (owner ++ "." ++ name)

/-- The calls that read or write outside the program. -/
def ioCallees : List Callee :=
  [.free "open", .free "urlopen", .dotted "urllib.request.urlopen"] ++
    moduleFunctions "requests" ["get", "post", "put", "patch", "delete", "head", "request"] ++
    [.dotted "socket.create_connection"] ++
    moduleFunctions "subprocess" ["run", "call", "check_call", "check_output", "Popen"] ++
    [.dotted "json.load", .dotted "pickle.load", .dotted "yaml.load"] ++
    moduleFunctions "os" ["remove", "unlink", "rename", "makedirs", "mkdir", "rmdir"] ++
    moduleFunctions "shutil" ["copy", "copy2", "copyfile", "copytree", "move", "rmtree"]

/-- Whether a statement stands inside a `try` block of its function, or is one itself. -/
def isGuarded (outline : Outline) (line : LogicalLine) : Bool :=
  line.keyword = some .tryKw ||
    (outline.controlParents line).any fun header => header.keyword = some .tryKw

/-- Calls that read or write outside the program and are not guarded. -/
def unguardedCalls (c : Context) : List Match :=
  c.outline.lines.toList.filterMap fun line =>
    match findCall? ioCallees line.code with
    | some (callee, _) =>
      if isGuarded c.outline line then none
      else
        let name := String.ofList callee
        some {
          line := line.startLine
          message := s!"I/O call '{name}()' is not inside a try block"
          evidence := some (String.ofList line.code)
          suggestion := some "Wrap the call in try/except and handle the failure" }
    | none => none

/-- A file that defines functions but handles no error. -/
def noHandling (c : Context) : List Match :=
  let count := c.outline.functions.length
  if count = 0 ∨ c.outline.lines.toList.any (·.keyword = some .tryKw) then []
  else
    [{ line := LineNumber.ofNat 0
       message := s!"No try/except blocks found in a file that defines {count} function(s)"
       suggestion := some "Handle the failures callers cannot recover from" }]

/-- The rule on handlers that catch everything. -/
def bareExceptRule : Rule :=
  .ofCheck "bare-except" "Bare Except Clause" .errorHandling .high
    "except clause that catches everything, including SystemExit and KeyboardInterrupt" bareExcepts

/-- The rule on unguarded input and output. -/
def unguardedIoRule : Rule :=
  .ofCheck "unguarded-io" "Unguarded I/O" .errorHandling .medium
    "File, network or process I/O outside any try block" unguardedCalls

/-- The rule on files that handle no error. -/
def noHandlingRule : Rule :=
  .ofCheck "no-error-handling" "No Error Handling" .errorHandling .medium
    "File defines functions but contains no try/except at all" noHandling

end CodeGrade
