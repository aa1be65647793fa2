import CodeGrade.Decimal.Reader
import CodeGrade.Json.Basic

/-!
# Reading JSON

A strict reader: blanks are the space, the tab and the two line ends; strings hold no control
characters; nothing may follow the value.

Each reader takes a budget of steps and gives the value with the text that follows it. A value
takes no more steps than it has characters, so the length of the text is always enough.

## Main definitions

* `Json.readValue?`: reads one value at the start of a text.
* `Json.parse?`: reads a text that is one value.
-/

namespace CodeGrade.Json

/-- The blanks of JSON. -/
def isSpace (c : Char) : Bool := c == ' ' || c == '\t' || c == '\n' || c == '\r'

/-- The text without its leading blanks. -/
def skip (text : List Char) : List Char := text.dropWhile isSpace

/-- The value of four hexadecimal digits. -/
def hex4? : List Char → Option (Nat × List Char)
  | a :: b :: c :: d :: rest => (Decimal.inBase? 16 [a, b, c, d]).map (·, rest)
  | _ => none

/-- The character of a `u` escape whose digits denote `unit`, and the text after it. The second
half of a surrogate pair is read too; a half alone is no character and reads as the replacement
character. -/
def escapedUnit (unit : Nat) (rest : List Char) : Char × List Char :=
  if 0xD800 ≤ unit && unit < 0xDC00 then
    let low? : Option (Nat × List Char) :=
      match rest with
      | '\\' :: 'u' :: more => (hex4? more).filter fun (low, _) => 0xDC00 ≤ low && low < 0xE000
      | _ => none
    match low? with
    | some (low, rest) => (Char.ofNat (0x10000 + (unit - 0xD800) * 0x400 + (low - 0xDC00)), rest)
    | none => (Char.ofNat 0xFFFD, rest)
  else if 0xDC00 ≤ unit && unit < 0xE000 then (Char.ofNat 0xFFFD, rest)
  else (Char.ofNat unit, rest)

/-- The character of a one-letter escape. -/
def escapedLetter? (c : Char) : Option Char :=
  if c == '"' || c == '\\' || c == '/' then some c
  else if c == 'b' then some (Char.ofNat 8)
  else if c == 'f' then some (Char.ofNat 12)
  else if c == 'n' then some '\n'
  else if c == 'r' then some '\r'
  else if c == 't' then some '\t'
  else none

/-- Reads the rest of a string literal; `read` holds its characters so far, last one first. -/
def stringBody? : (fuel : Nat) → (read : List Char) → List Char → Option (String × List Char)
  | 0, _, _ => none
  | _ + 1, _, [] => none
  | fuel + 1, read, c :: rest =>
    if c == '"' then some (String.ofList read.reverse, rest)
    else if c.toNat < 0x20 then none
    else if c == '\\' then
      match rest with
      | 'u' :: digits => do
        let (unit, rest) ← hex4? digits
        let (character, rest) := escapedUnit unit rest
        stringBody? fuel (character :: read) rest
      | letter :: rest => do
        let character ← escapedLetter? letter
        stringBody? fuel (character :: read) rest
      | [] => none
    else stringBody? fuel (c :: read) rest

/-- Reads a number literal: no leading zeros, and digits on both sides of a point. -/
def numberLiteral? (text : List Char) : Option (Float × List Char) := do
  let (negative, text) :=
    match text with
    | '-' :: rest => (true, rest)
    | _ => (false, text)
  let whole := text.takeWhile Text.isDigit
  let rest := text.dropWhile Text.isDigit
  if whole.isEmpty || (whole.head? == some '0' && whole.length > 1) then none
  else
    let (fraction, rest) ←
      match rest with
      | '.' :: more =>
        let fraction := more.takeWhile Text.isDigit
        if fraction.isEmpty then none else some (fraction, more.dropWhile Text.isDigit)
      | _ => some ([], rest)
    let (exponent, rest) ← Decimal.exponentPart? rest
    some ((Decimal.Literal.ofDigits negative whole fraction exponent).value, rest)

mutual

/-- Reads a value at the start of a text. -/
def readValue? : (fuel : Nat) → List Char → Option (Json × List Char)
  | 0, _ => none
  | fuel + 1, text =>
    match skip text with
    | [] => none
    | c :: rest =>
      if c == '"' then (stringBody? (rest.length + 1) [] rest).map fun (s, rest) => (.string s, rest)
      else if c == '[' then
        match skip rest with
        | ']' :: rest => some (.array [], rest)
        | _ => readItems? fuel [] rest
      else if c == '\x7b' then
        match skip rest with
        | '\x7d' :: rest => some (.object [], rest)
        | _ => readMembers? fuel [] rest
      else if c == 't' then (Text.afterString? "rue" rest).map (.bool true, ·)
      else if c == 'f' then (Text.afterString? "alse" rest).map (.bool false, ·)
      else if c == 'n' then (Text.afterString? "ull" rest).map (.null, ·)
      else (numberLiteral? (c :: rest)).map fun (x, rest) => (.number x, rest)

/-- Reads the rest of an array; `read` holds its items so far, last one first. -/
def readItems? : (fuel : Nat) → (read : List Json) → List Char → Option (Json × List Char)
  | 0, _, _ => none
  | fuel + 1, read, text => do
    let (item, rest) ← readValue? fuel text
    match skip rest with
    | ',' :: rest => readItems? fuel (item :: read) rest
    | ']' :: rest => some (.array (item :: read).reverse, rest)
    | _ => none

/-- Reads the rest of an object; `read` holds its members so far, last one first. -/
def readMembers? : (fuel : Nat) → (read : List (String × Json)) → List Char → Option (Json × List Char)
  | 0, _, _ => none
  | fuel + 1, read, text =>
    match skip text with
    | '"' :: rest => do
      let (name, rest) ← stringBody? (rest.length + 1) [] rest
      match skip rest with
      | ':' :: rest => do
        let (value, rest) ← readValue? fuel rest
        match skip rest with
        | ',' :: rest => readMembers? fuel ((name, value) :: read) rest
        | '\x7d' :: rest => some (.object (ofMembers ((name, value) :: read).reverse), rest)
        | _ => none
      | _ => none
    | _ => none

end

/-- The value that a text is. -/
def parse? (text : List Char) : Option Json := do
  let (value, rest) ← readValue? (text.length + 1) text
  if (skip rest).isEmpty then some value else none

end CodeGrade.Json
