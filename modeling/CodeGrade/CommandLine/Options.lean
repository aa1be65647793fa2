import CodeGrade.Decimal.Reader
import CodeGrade.Scan
import CodeGrade.Text.LowerCase

/-!
# Options of the command line

Reading the options of a command, and the values that two of them take.

## Main definitions

* `OptionSpec`: an option of a command.
* `readOptions`: options and operands among arguments.
* `Format.readList`, `readMinScore`: the values of options.
-/

namespace CodeGrade

/-- An option of a command: how it is written, and what its value is called if it takes one. -/
structure OptionSpec where
  long : String
  short : Option String
  value : Option String
  deriving DecidableEq, Repr

/-- The option as messages show it. -/
def OptionSpec.flags (spec : OptionSpec) : String :=
  match spec.value with
  | some value => s!"{spec.long} <{value}>"
  | none => spec.long

/-- Whether an argument is the option. -/
def OptionSpec.isWritten (spec : OptionSpec) (arg : String) : Bool :=
  spec.long = arg || spec.short = some arg

/-- What ends the reading of options before their end. -/
inductive OptionStop where
  /-- An option that is acted on at once. -/
  | flag (spec : OptionSpec)
  /-- An option without its value. -/
  | missingValue (spec : OptionSpec)

/-- What options and operands were read. Once an option is unknown, all that follows counts as
unknown too, apart from options that are known. -/
structure OptionReading where
  values : List (OptionSpec × String)
  operands : List String
  unknown : List String

namespace OptionReading

/-- Nothing has been read. -/
def empty : OptionReading := ⟨[], [], []⟩

/-- Adds a value in front. -/
def addValue (spec : OptionSpec) (value : String) (r : OptionReading) : OptionReading :=
  { r with values := (spec, value) :: r.values }

/-- Adds an argument in front, to the operands or to what is unknown. -/
def addPlain (isUnknown : Bool) (arg : String) (r : OptionReading) : OptionReading :=
  if isUnknown then { r with unknown := arg :: r.unknown }
  else { r with operands := arg :: r.operands }

/-- The last value given for an option. -/
def value? (r : OptionReading) (long : String) : Option String :=
  ((r.values.filter fun (spec, _) => spec.long = long).getLast?).map (·.2)

end OptionReading

/-- Whether an argument looks like an option. -/
def looksLikeOption (arg : String) : Bool :=
  match arg.toList with
  | '-' :: _ :: _ => true
  | _ => false

/-- The short option that an argument starts with, and the rest of the argument. -/
def shortOption? (specs : List OptionSpec) (arg : String) : Option (OptionSpec × String) :=
  match arg.toList with
  | '-' :: c :: rest =>
    if c = '-' ∨ rest.isEmpty then none
    else
      (specs.find? fun spec => spec.short = some (String.ofList ['-', c])).map
        (·, String.ofList rest)
  | _ => none

/-- The option and the value of an argument like `--option=value`. -/
def assigned? (specs : List OptionSpec) (arg : String) : Option (OptionSpec × String) :=
  let text := arg.toList
  let name := text.takeWhile (· ≠ '=')
  match text.drop name.length with
  | '=' :: value =>
    if name.length < 3 || name.take 2 ≠ ['-', '-'] then none
    else
      (specs.find? fun spec => spec.value.isSome && spec.isWritten (String.ofList name)).map
        (·, String.ofList value)
  | _ => none

/-- Reads options and operands. Two dashes end the options. -/
def readOptions (specs : List OptionSpec) (isUnknown : Bool) :
    List String → Except OptionStop OptionReading
  | [] => .ok .empty
  | arg :: rest =>
    if arg = "--" then
      .ok (if isUnknown then ⟨[], [], arg :: rest⟩ else ⟨[], rest, []⟩)
    else if !looksLikeOption arg then
      (readOptions specs isUnknown rest).map (·.addPlain isUnknown arg)
    else
      match specs.find? (·.isWritten arg) with
      | some spec =>
        if spec.value.isNone then .error (.flag spec)
        else
          match rest with
          | value :: rest => (readOptions specs isUnknown rest).map (·.addValue spec value)
          | [] => .error (.missingValue spec)
      | none =>
        match shortOption? specs arg with
        | some (spec, value) =>
          if spec.value.isNone then .error (.flag spec)
          else (readOptions specs isUnknown rest).map (·.addValue spec value)
        | none =>
          match assigned? specs arg with
          | some (spec, value) => (readOptions specs isUnknown rest).map (·.addValue spec value)
          | none => (readOptions specs true rest).map (·.addPlain true arg)

/-! ### Values of options -/

/-- A value that an option does not take. -/
inductive OptionFault where
  | format (value : String)
  | minScore (value : String)
  deriving DecidableEq, Repr

/-- The wording of a value that an option does not take. -/
def OptionFault.message : OptionFault → String
  | format value =>
    s!"Invalid --format value: \"{value}\". Must be one of console, markdown, json or all."
  | minScore value =>
    s!"Invalid --min-score value: \"{value}\". Must be a number between 0 and 10."

/-- Adds the formats with the given names to those before them, each once. The name `all` stands for
all formats, whatever follows it. -/
def Format.readNames (found : List Format) : List (List Char) → Except OptionFault (List Format)
  | [] => .ok found
  | name :: rest =>
    let name := String.ofList name
    if name = "all" then .ok Format.all
    else
      match Format.ofName? name with
      | some format => readNames (if found.contains format then found else found ++ [format]) rest
      | none => .error (.format name)

/-- The formats in a list with commas, whatever the case of their names. -/
def Format.readList (text : String) : Except OptionFault (List Format) :=
  Format.readNames [] ((Text.splitOn ',' text.toList).map fun part => Text.toLower (Text.trim part))

/-- The score in an option's value, which lies between zero and ten. -/
def readMinScore (text : String) : Except OptionFault Float :=
  match Decimal.number? text.toList with
  | some score => if score < 0.0 || 10.0 < score then .error (.minScore text) else .ok score
  | none => .error (.minScore text)

end CodeGrade
