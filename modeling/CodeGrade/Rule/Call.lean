import CodeGrade.Text.Search

/-!
# Calls in masked code

Looking for calls of functions by their names. A call is a name, blanks perhaps, and an opening
bracket.

## Main definitions

* `Callee`: which functions to look for.
* `findCall?`: the first call of one of them.
-/

namespace CodeGrade

/-- The functions that a search looks for. -/
inductive Callee where
  /-- A function called by its bare name, not as an attribute of something. -/
  | free (name : String)
  /-- A function called by a dotted name, or by the end of a longer one. -/
  | dotted (name : String)
  /-- Any function of a module. -/
  | member (owner : String)
  deriving DecidableEq, Repr

/-- Reads a name and an opening bracket at the start of a text; with the name, and what follows
the bracket. -/
def callAt? (name : String) (text : List Char) : Option (List Char × List Char) := do
  let rest ← Text.afterString? name text
  let rest ← Text.afterChar? '(' rest
  some (name.toList, rest)

/-- Reads a call at the start of a text; `before` is the character that stands before it. -/
def Callee.read? (callee : Callee) (before : Option Char) (text : List Char) :
    Option (List Char × List Char) :=
  match callee with
  | free name => if Text.startsFreeName before then callAt? name text else none
  | dotted name => if Text.startsWord before then callAt? name text else none
  | member owner =>
    if Text.startsWord before then do
      let rest ← Text.afterString? (owner ++ ".") text
      let (name, rest) := Text.wordAt rest
      let rest ← if name.isEmpty then none else Text.afterChar? '(' rest
      some ((owner ++ ".").toList ++ name, rest)
    else none

/-- The first call of one of the functions: its name, and what follows its opening bracket. -/
def findCall? (callees : List Callee) (code : List Char) : Option (List Char × List Char) :=
  Text.first? (fun before text => callees.findSome? (·.read? before text)) code

/-- Whether the code calls one of the functions. -/
def calls (callees : List Callee) (code : List Char) : Bool := (findCall? callees code).isSome

/-- Whether the text ends with a word. -/
def endsWith (suffix : String) (text : List Char) : Bool := suffix.toList.isSuffixOf text

/-- Reads a call of a method at the start of a text; with what the method belongs to. -/
def methodCallAt? (method : String) (text : List Char) : Option (List Char) := do
  let first ← text.head?
  let name := text.takeWhile Text.isDottedChar
  let _ ← Text.afterChar? '(' (text.dropWhile Text.isDottedChar)
  if Text.isNameStart first && endsWith ("." ++ method) name then
    some (name.take (name.length - (method.length + 1)))
  else none

/-- Whether a method of `owner` is called anywhere in a text. -/
def callsMethod (owner : List Char) (method : String) (text : List Char) : Bool :=
  Text.holds (fun before rest =>
    Text.startsWord before &&
      ((Text.after? owner rest).bind fun rest => callAt? ("." ++ method) rest).isSome) text

end CodeGrade
