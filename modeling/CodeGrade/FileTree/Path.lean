import CodeGrade.Text.Search

/-!
# Paths

Paths as text, with the rules for joining and simplifying them. Nothing here looks at files.

## Main definitions

* `Path.parts`: the names in a path.
* `Path.normalize`: a path without detours.
* `Path.join`: a path below another.
-/

namespace CodeGrade.Path

/-- The names in a path. -/
def parts (path : String) : List String :=
  ((Text.splitOn '/' path.toList).filter (!·.isEmpty)).map String.ofList

/-- Whether the path starts at the root. -/
def isAbsolute (path : String) : Bool := path.toList.head? == some '/'

/-- Whether the path ends with a slash. -/
def endsInSlash (path : String) : Bool := path.toList.getLast? == some '/'

/-- Adds a name to simplified names, which are given last one first. A step up undoes the step
before it; where there is none it stays, unless the path starts at the root. -/
def push (absolute : Bool) (done : List String) (name : String) : List String :=
  if name = "." then done
  else if name = ".." then
    match done with
    | [] => if absolute then [] else [".."]
    | last :: rest => if last = ".." then ".." :: done else rest
  else name :: done

/-- Names without detours. -/
def simplify (absolute : Bool) (names : List String) : List String :=
  (names.foldl (push absolute) []).reverse

/-- A path without detours. A slash at its end stays. -/
def normalize (path : String) : String :=
  let absolute := isAbsolute path
  let body := "/".intercalate (simplify absolute (parts path))
  let body := if body.isEmpty && !absolute then "." else body
  let body := if endsInSlash path && !(body.isEmpty && absolute) then body ++ "/" else body
  if absolute then "/" ++ body else body

/-- The path of `name` below `directory`. -/
def join (directory name : String) : String :=
  if directory.isEmpty then (if name.isEmpty then "." else normalize name)
  else if name.isEmpty then normalize directory
  else normalize (directory ++ "/" ++ name)

/-- What follows the directory in a path below it. -/
def below? (directory path : String) : Option String :=
  (Text.afterString? (directory ++ "/") path.toList).map String.ofList

/-- The path without its last name. -/
def parent (path : String) : String :=
  let names := (parts path).dropLast
  let body := "/".intercalate names
  if isAbsolute path then "/" ++ body else if body.isEmpty then "." else body

/-- Whether a path has the ending of a Python file. -/
def isPython (path : String) : Bool := ".py".toList.isSuffixOf path.toList

end CodeGrade.Path
