import CodeGrade.Rule.Basic
import CodeGrade.Rule.Call
import CodeGrade.Source.Header

/-!
# Rules on injection

Code, commands and paths that are put together at run time.
-/

namespace CodeGrade

/-- The calls that run code built at run time. -/
def executingCallees : List Callee := [.free "eval", .free "exec", .free "compile", .free "__import__"]

/-- Statements that run code built at run time. -/
def dynamicExecution (c : Context) : List Match :=
  c.outline.lines.toList.filterMap fun line =>
    (findCall? executingCallees line.code).map fun (callee, _) =>
      let name := String.ofList callee
      { line := line.startLine
        message := s!"Use of {name}() is dangerous"
        evidence := some (String.ofList line.code)
        suggestion :=
          some "Parse the input explicitly (e.g. ast.literal_eval or a lookup table)" }

/-- Whether the code passes `shell=True` to something. -/
def asksForShell (code : List Char) : Bool :=
  Text.holds (fun before text =>
    Text.startsWord before &&
      (do
        let rest ← Text.afterString? "shell" text
        let rest ← Text.afterChar? '=' rest
        Text.afterString? "True" (Text.trimStart rest)).any Text.endsWord) code

/-- Whether the code runs a command through a shell. -/
def runsShell (code : List Char) : Bool :=
  calls [.dotted "os.system", .dotted "os.popen"] code ||
    (calls [.member "subprocess"] code && asksForShell code)

/-- Statements that run a command through a shell. -/
def shellCommands (c : Context) : List Match :=
  c.outline.lines.toList.filterMap fun line =>
    if runsShell line.code then
      some {
        line := line.startLine
        message := "Command is executed through a shell"
        evidence := some (String.ofList line.code)
        suggestion := some "Pass an argument list to subprocess.run without shell=True" }
    else none

/-- The calls that take a path. -/
def pathCallees : List Callee :=
  [.free "open", .free "Path", .dotted "os.path.join", .dotted "os.remove", .dotted "os.unlink",
    .dotted "os.rmdir", .dotted "os.makedirs", .dotted "os.listdir", .member "shutil"]

/-- Whether a text starts with a string literal, one plain letter before it allowed. -/
def startsString (text : List Char) : Bool :=
  match text with
  | c :: rest =>
    isQuote c || ("rRbBuU".toList.contains c && rest.head?.any isQuote)
  | [] => false

/-- Whether a text starts with the operator and then, blanks apart, something that the test
accepts. -/
def operatorThen (operator : Char) (accepts : List Char → Bool) (text : List Char) : Bool :=
  (Text.afterChar? operator text).any fun rest => accepts (Text.trimStart rest)

/-- Whether the end of a string literal at the start of a text is followed by a concatenation with
something else, by a formatting operator, or by a call of `format`. -/
def literalIsExtended (text : List Char) : Bool :=
  match text with
  | c :: rest =>
    isQuote c &&
      (operatorThen '+' (fun t => t.head?.any fun d => Text.isNameStart d || d == '(') rest ||
        operatorThen '%' (fun t => t.head?.any fun d => Text.isWordChar d || d == '(') rest ||
        ((Text.afterString? ".format" rest).bind (Text.afterChar? '(')).isSome)
  | [] => false

/-- Whether the end of an expression at the start of a text is followed by a concatenation with a
string literal. -/
def operandIsExtended (text : List Char) : Bool :=
  match text with
  | c :: rest =>
    (Text.isWordChar c || c == ')' || c == ']') && operatorThen '+' startsString rest
  | [] => false

/-- Whether a text starts with a formatted string literal. -/
def startsFormatted (text : List Char) : Bool :=
  let isF (c : Char) := c == 'f' || c == 'F'
  let isR (c : Char) := c == 'r' || c == 'R'
  match text with
  | a :: b :: rest =>
    (isF a && (isQuote b || (isR b && rest.head?.any isQuote))) ||
      (isR a && isF b && rest.head?.any isQuote)
  | _ => false

/-- Whether the code builds a string from parts. -/
def buildsString (code : List Char) : Bool :=
  Text.holds (fun before text =>
    literalIsExtended text || operandIsExtended text ||
      (Text.startsFreeName before && startsFormatted text)) code

/-- Statements that pass a path built from parts to the file system. -/
def unsafePaths (c : Context) : List Match :=
  c.outline.lines.toList.filterMap fun line =>
    if (findCall? pathCallees line.code).any fun (_, arguments) => buildsString arguments then
      some {
        line := line.startLine
        message := "File path is built from unsanitized string concatenation"
        evidence := some (String.ofList line.code)
        suggestion := some
          "Join with pathlib and check the resolved path stays inside the base directory" }
    else none

/-- The rules on injection. -/
def injectionRules : List Rule :=
  [.ofCheck "dynamic-code-execution" "Dangerous Function" .security .high
      "eval/exec/compile/__import__ run code built at runtime" dynamicExecution,
   .ofCheck "shell-injection" "Shell Command Injection" .security .high
      "Command run through a shell" shellCommands,
   .ofCheck "unsafe-path-concatenation" "Unsafe Path Construction" .security .medium
      "File path built by string concatenation or formatting" unsafePaths]

end CodeGrade
