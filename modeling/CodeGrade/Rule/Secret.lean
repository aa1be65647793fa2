import CodeGrade.Rule.Basic
import CodeGrade.Text.Search
import CodeGrade.Text.Units

/-!
# Secrets in the source

Literals that look like a password, a key or a token: because of the name they are assigned to,
because of their shape, or because their characters are too evenly spread. The rule reads the
physical lines, since the contents of string literals matter here.

## Main definitions

* `secretName?`: the name of a secret that is given a literal value.
* `holdsToken`: whether a literal has the shape of an access token.
* `entropy`: the Shannon entropy of a text.
* `hardcodedSecrets`: the check.
-/

namespace CodeGrade

/-! ### Names that promise a secret -/

/-- The ends of names that promise a secret; one `s` may follow. -/
def secretWords : List String :=
  ["password", "passwd", "pwd", "secret", "apikey", "api_key", "token", "accesskey", "access_key",
    "privatekey", "private_key", "credential"]

/-- Whether a name, written in small letters, ends like that of a secret. -/
def isSecretName (name : List Char) : Bool :=
  secretWords.any fun word =>
    word.toList.isSuffixOf name || (word ++ "s").toList.isSuffixOf name

/-- Drops one quotation mark at the start of a text. -/
def dropQuote : List Char → List Char
  | [] => []
  | c :: rest => if isQuote c then rest else c :: rest

/-- The letters that may stand before a plain string literal. -/
def isPlainPrefix (c : Char) : Bool := "rRbBuU".toList.contains c

/-- Whether a text starts with a string literal that is not empty and holds no quotation mark of
either sort. -/
def startsLiteral (text : List Char) : Bool :=
  let text :=
    match text with
    | c :: rest => if isPlainPrefix c then rest else text
    | [] => []
  match text with
  | q :: rest =>
    let inner := rest.takeWhile fun c => !isQuote c && c != '\n'
    isQuote q && !inner.isEmpty && (rest.drop inner.length).head? == some q
  | [] => false

/-- Whether a text starts with the sign of an assignment and a literal. -/
def startsValue (text : List Char) : Bool :=
  match text with
  | c :: rest => (c == ':' || c == '=') && startsLiteral (Text.trimStart rest)
  | [] => false

/-- The characters of a simple type annotation. -/
def isAnnotationChar (c : Char) : Bool :=
  Text.isWordChar c || c == '[' || c == ']' || c == ',' || c == ' '

/-- What follows a type annotation at the start of a text. -/
def afterAnnotation? (text : List Char) : Option (List Char) := do
  let rest ← Text.after? [':'] text
  let type := Text.trimStart rest
  let first ← type.head?
  if Text.isNameStart first then some (type.dropWhile isAnnotationChar) else none

/-- Whether what follows a name gives it a literal value, perhaps after a type annotation. -/
def isGivenLiteral (text : List Char) : Bool :=
  let rest := Text.trimStart (dropQuote text)
  (afterAnnotation? rest).any startsValue || startsValue rest

/-- The first name in a line that promises a secret and is given a literal value. -/
def secretName? (line : List Char) : Option (List Char) :=
  Text.first? (fun before text =>
    let name := text.takeWhile Text.isNameStart
    if Text.startsWord before && isSecretName (name.map Char.toLower) &&
        isGivenLiteral (text.drop name.length) then
      some name
    else none) line

/-! ### Shapes of access tokens -/

/-- Whether a text starts with at least `least` characters of a class and then the mark that closes
its literal. -/
def closesAfter (quote : Char) (least : Nat) (accepts : Char → Bool) (text : List Char) : Bool :=
  let run := text.takeWhile accepts
  least ≤ run.length && (text.drop run.length).head? == some quote

/-- Whether a text starts with an access key of a cloud account. -/
def isAccessKey (quote : Char) (text : List Char) : Bool :=
  let key? := (Text.afterString? "AKIA" text).or (Text.afterString? "ASIA" text)
  key?.any fun key =>
    let run := key.takeWhile fun c => Text.isDigit c || Text.isCapital c
    run.length == 16 && (key.drop 16).head? == some quote

/-- Whether a text starts with a token of a code host. -/
def isHostToken (quote : Char) (text : List Char) : Bool :=
  match text with
  | 'g' :: 'h' :: kind :: '_' :: rest =>
    "pousr".toList.contains kind && closesAfter quote 36 Text.isAlphanumeric rest
  | _ => false

/-- Whether a text starts with a key of a payment service. -/
def isPaymentKey (quote : Char) (text : List Char) : Bool :=
  (Text.afterString? "sk_live_" text).any (closesAfter quote 16 Text.isAlphanumeric)

/-- Whether a text starts with a token of a chat service. -/
def isChatToken (quote : Char) (text : List Char) : Bool :=
  match text with
  | 'x' :: 'o' :: 'x' :: kind :: '-' :: rest =>
    "baprs".toList.contains kind &&
      closesAfter quote 10 (fun c => Text.isAlphanumeric c || c == '-') rest
  | _ => false

/-- Whether a literal in the line has the shape of an access token. -/
def holdsToken (line : List Char) : Bool :=
  Text.holds (fun _ text =>
    match text with
    | quote :: rest =>
      isQuote quote && (isAccessKey quote rest || isHostToken quote rest || isPaymentKey quote rest ||
        isChatToken quote rest)
    | [] => false) line

/-! ### Evenly spread characters -/

/-- The Shannon entropy of a text in bits: each character counts once, but the length is that in
16-bit units. -/
def entropy (text : List Char) : Float :=
  if text.isEmpty then 0.0
  else
    let length := Float.ofNat (Text.unitLength text)
    text.eraseDups.foldl (fun sum c =>
      let share := Float.ofNat (text.count c) / length
      sum - share * share.log2) 0.0

/-- The characters of keys and tokens. -/
def isKeyChar (c : Char) : Bool :=
  Text.isAlphanumeric c || c == '+' || c == '/' || c == '=' || c == '_' || c == '-'

/-- The least length of a literal whose characters are looked at. -/
def longLiteralLength : Nat := 32

/-- The long literals in a line that look like keys. The closing mark of one does not open another:
`skip` counts the characters that belong to the last one found. -/
def longLiteralsFrom (skip : Nat) : List Char → List (List Char)
  | [] => []
  | c :: rest =>
    match skip with
    | skip + 1 => longLiteralsFrom skip rest
    | 0 =>
      let run := rest.takeWhile isKeyChar
      if isQuote c && closesAfter c longLiteralLength isKeyChar rest then
        run :: longLiteralsFrom (run.length + 1) rest
      else longLiteralsFrom 0 rest

/-- The long literals in a line that look like keys. -/
def longLiterals (line : List Char) : List (List Char) := longLiteralsFrom 0 line

/-- Whether the characters of a literal are spread like those of a key. -/
def looksRandom (literal : List Char) : Bool :=
  literal.any Text.isDigit && literal.any Text.isLetter && 4.5 ≤ entropy literal

/-! ### The check -/

/-- What makes a line look like it holds a secret. -/
def secretFinding? (line : List Char) : Option String :=
  match secretName? line with
  | some name =>
    let shown := String.ofList name
    some s!"'{shown}' is assigned a literal value"
  | none =>
    if holdsToken line then some "String literal has the shape of an access token"
    else if (longLiterals line).any looksRandom then
      some "High-entropy string literal looks like a key or token"
    else none

/-- Lines, other than comments, that look like they hold a secret. -/
def hardcodedSecrets (c : Context) : List Match :=
  (c.unit.lines.zipIdx 1).filterMap fun (raw, number) =>
    if isCommentLine raw then none
    else
      (secretFinding? raw).map fun finding =>
        { line := number
          message := s!"Potential hardcoded secret found: {finding}"
          suggestion := some "Read it from the environment or a secrets manager" }

/-- The rule on secrets. -/
def hardcodedSecretRule : Rule :=
  .ofCheck "hardcoded-secret" "Hardcoded Secret" .security .critical
    "Password, key or token written directly in the source" hardcodedSecrets

end CodeGrade
