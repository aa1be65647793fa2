import CodeGrade.Rule.Basic
import CodeGrade.Rule.Call

/-!
# Resources that are never released

Files, sockets and connections that are opened by an assignment and never closed, and locks that
are acquired and never released.
-/

namespace CodeGrade

/-- The calls that acquire a resource. -/
def acquiringCalls : List String :=
  ["open", "socket.socket", "sqlite3.connect", "psycopg2.connect", "urllib.request.urlopen",
    "urlopen", "zipfile.ZipFile", "tarfile.open", "tempfile.TemporaryFile",
    "tempfile.NamedTemporaryFile"]

/-- The name that a statement assigns a resource to, and the call that acquires it. -/
def acquisition? (code : List Char) : Option (List Char × List Char) := do
  let first ← code.head?
  if Text.isNameStart first then
    let name := code.takeWhile Text.isDottedChar
    let rest ← Text.afterChar? '=' (code.dropWhile Text.isDottedChar)
    let rest := Text.trimStart rest
    let (callee, _) ← acquiringCalls.findSome? fun callee => callAt? callee rest
    some (name, callee)
  else none

/-- The name of the first lock that a statement acquires. -/
def lockAcquired? (code : List Char) : Option (List Char) :=
  Text.first? (fun _ text => methodCallAt? "acquire" text) code

/-- The code of all statements, one a line. -/
def allCode (outline : Outline) : List Char :=
  ['\n'].intercalate (outline.lines.toList.map (·.code))

/-- The last part of a dotted name. -/
def lastPart (name : List Char) : List Char := ((Text.splitOn '.' name).getLast?).getD name

/-- The match of a resource that is assigned and never closed. -/
def unclosed (line : LogicalLine) (owner acquiring : List Char) : Match :=
  let name := String.ofList owner
  let callee := String.ofList acquiring
  let short := String.ofList (lastPart owner)
  { line := line.startLine
    message := s!"'{name}' is opened with {callee}() but never closed"
    evidence := some (String.ofList line.code)
    suggestion :=
      some s!"Use 'with {callee}(...) as {short}:' or close it in a finally block" }

/-- The match of a lock that is acquired and never released. -/
def unreleased (line : LogicalLine) (lock : List Char) : Match :=
  let name := String.ofList lock
  { line := line.startLine
    message := s!"'{name}' is acquired but never released"
    evidence := some (String.ofList line.code)
    suggestion := some s!"Use 'with {name}:' so the lock is always released" }

/-- The resource that a statement acquires and that no statement of `code` releases. -/
def leak? (code : List Char) (line : LogicalLine) : Option Match :=
  if line.keyword.any Keyword.isWith then none
  else
    let file? := (acquisition? line.code).filter fun (name, _) => !callsMethod name "close" code
    match file? with
    | some (name, callee) => some (unclosed line name callee)
    | none =>
      let lock? := (lockAcquired? line.code).filter fun name => !callsMethod name "release" code
      lock?.map (unreleased line)

/-- Resources that are acquired and never released. -/
def missingCleanup (c : Context) : List Match :=
  let code := allCode c.outline
  c.outline.lines.toList.filterMap (leak? code)

/-- The rule on resources. -/
def missingCleanupRule : Rule :=
  .ofCheck "missing-cleanup" "Missing Resource Cleanup" .errorHandling .medium
    "Resource acquired without a with-statement and never closed or released" missingCleanup

end CodeGrade
