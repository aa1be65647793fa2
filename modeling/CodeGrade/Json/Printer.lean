import CodeGrade.Decimal.Format
import CodeGrade.Json.Basic

/-!
# Writing JSON

Three ways to write a value: on one line without blanks, indented by two blanks a level, and as
plain text the way a message quotes it.

## Main definitions

* `Json.compress`: the text on one line.
* `Json.pretty`: the indented text.
* `Json.describe?`: the value as a message quotes it.
-/

namespace CodeGrade.Json

/-- A hexadecimal digit. -/
def hexDigit (n : Nat) : Char := Nat.digitChar n

/-- A character inside a string literal: quotes, backslashes and control characters are
escaped. -/
def escapeChar (c : Char) : List Char :=
  if c == '"' then ['\\', '"']
  else if c == '\\' then ['\\', '\\']
  else if c == '\n' then ['\\', 'n']
  else if c == '\r' then ['\\', 'r']
  else if c == '\t' then ['\\', 't']
  else if c.toNat == 8 then ['\\', 'b']
  else if c.toNat == 12 then ['\\', 'f']
  else if c.toNat < 0x20 then
    ['\\', 'u', '0', '0', hexDigit (c.toNat / 16), hexDigit (c.toNat % 16)]
  else [c]

/-- A string literal. -/
def quote (s : String) : String :=
  String.ofList ('"' :: s.toList.flatMap escapeChar ++ ['"'])

/-- A number literal. Numbers that are not finite have none and are written `null`. -/
def numberLiteral (x : Float) : String := if Decimal.isFinite x then Decimal.text x else "null"

mutual

/-- The value on one line, without blanks. -/
def compress : Json → String
  | .null => "null"
  | .bool value => if value then "true" else "false"
  | .number value => numberLiteral value
  | .string value => quote value
  | .array items => "[" ++ ",".intercalate (compressItems items) ++ "]"
  | .object members => "\x7b" ++ ",".intercalate (compressMembers members) ++ "\x7d"

/-- The items of an array, each on one line. -/
def compressItems : List Json → List String
  | [] => []
  | item :: rest => compress item :: compressItems rest

/-- The members of an object, each on one line. -/
def compressMembers : List (String × Json) → List String
  | [] => []
  | (name, value) :: rest => (quote name ++ ":" ++ compress value) :: compressMembers rest

end

/-- Encloses indented parts, each on a line of its own. Without parts nothing stands between the
brackets. -/
def enclose (opening closing indent : String) (parts : List String) : String :=
  if parts.isEmpty then opening ++ closing
  else
    let inner := "\n" ++ indent ++ "  "
    opening ++ inner ++ ("," ++ inner).intercalate parts ++ "\n" ++ indent ++ closing

mutual

/-- The value indented by two blanks a level, inside a line indented by `indent`. -/
def prettyFrom (indent : String) : Json → String
  | .null => "null"
  | .bool value => if value then "true" else "false"
  | .number value => numberLiteral value
  | .string value => quote value
  | .array items => enclose "[" "]" indent (prettyItems (indent ++ "  ") items)
  | .object members => enclose "\x7b" "\x7d" indent (prettyMembers (indent ++ "  ") members)

/-- The items of an array, indented. -/
def prettyItems (indent : String) : List Json → List String
  | [] => []
  | item :: rest => prettyFrom indent item :: prettyItems indent rest

/-- The members of an object, indented. -/
def prettyMembers (indent : String) : List (String × Json) → List String
  | [] => []
  | (name, value) :: rest =>
    (quote name ++ ": " ++ prettyFrom indent value) :: prettyMembers indent rest

end

/-- The value indented by two blanks a level. -/
def pretty (value : Json) : String := prettyFrom "" value

mutual

/-- The value as a message quotes it: strings bare, arrays as their items between commas, and
objects by their sort alone. An object with a member called `toString` cannot be quoted: the member
stands in the way of the description, and it is never one itself. -/
def describe? : Json → Option String
  | .null => some "null"
  | .bool value => some (if value then "true" else "false")
  | .number value => some (Decimal.text value)
  | .string value => some value
  | .array items => (describeItems? items).map (",".intercalate ·)
  | .object members =>
    if members.any (·.1 = "toString") then none else some "[object Object]"

/-- The items of an array as a message quotes them; `null` leaves a gap. -/
def describeItems? : List Json → Option (List String)
  | [] => some []
  | .null :: rest => ("" :: ·) <$> describeItems? rest
  | item :: rest => List.cons <$> describe? item <*> describeItems? rest

end

end CodeGrade.Json
