/-!
# JSON values

JSON values with their members in order. An object lists the members whose names are array
indices first, by size, and the others in the order in which they were first written; a name that
is written again keeps its place and takes the new value.

## Main definitions

* `Json`: the values.
* `Json.Kind`: what sort of value it is.
* `Json.insert`, `Json.ofMembers`: building an object's members.
* `Json.field?`: the member of an object with a given name.
-/

namespace CodeGrade

/-- A JSON value. -/
inductive Json where
  | null
  | bool (value : Bool)
  | number (value : Float)
  | string (value : String)
  | array (items : List Json)
  | object (members : List (String × Json))
  deriving Inhabited

namespace Json

/-- The sorts of JSON values. -/
inductive Kind where
  | null
  | boolean
  | number
  | string
  | array
  | object
  deriving DecidableEq, Repr

/-- The name of a sort of values. -/
def Kind.name : Kind → String
  | .null => "null"
  | .boolean => "boolean"
  | .number => "number"
  | .string => "string"
  | .array => "array"
  | .object => "object"

/-- The sort of a value. -/
def kind : Json → Kind
  | .null => .null
  | .bool _ => .boolean
  | .number _ => .number
  | .string _ => .string
  | .array _ => .array
  | .object _ => .object

/-- Sets a member: in its old place if there is one of that name, and at the end otherwise. -/
def insert (name : String) (value : Json) : List (String × Json) → List (String × Json)
  | [] => [(name, value)]
  | (other, old) :: rest =>
    if other = name then (name, value) :: rest else (other, old) :: insert name value rest

/-- The array index that a member's name denotes, if it is written as one. -/
def arrayIndex? (name : String) : Option Nat :=
  let digits := name.toList
  if digits.isEmpty || !digits.all (fun c => '0' ≤ c && c ≤ '9') then none
  else if digits.head? == some '0' && digits.length > 1 then none
  else if digits.length > 10 then none
  else
    let n := digits.foldl (fun n c => n * 10 + (c.toNat - '0'.toNat)) 0
    if n < Nat.pow 2 32 - 1 then some n else none

/-- The members of an object, from the pairs as they were written. -/
def ofMembers (written : List (String × Json)) : List (String × Json) :=
  let members := written.foldl (fun members (name, value) => insert name value members) []
  let indexed := members.filterMap fun (name, value) =>
    (arrayIndex? name).map fun n => (n, name, value)
  let named := members.filter fun (name, _) => (arrayIndex? name).isNone
  (indexed.mergeSort fun a b => a.1 ≤ b.1).map (fun (_, name, value) => (name, value)) ++ named

/-- The member of an object with a given name. -/
def field? (name : String) : Json → Option Json
  | .object members => (members.find? (·.1 = name)).map (·.2)
  | _ => none

/-- The string in a value. -/
def string? : Json → Option String
  | .string value => some value
  | _ => none

/-- The number in a value. -/
def number? : Json → Option Float
  | .number value => some value
  | _ => none

/-- The truth value in a value. -/
def bool? : Json → Option Bool
  | .bool value => some value
  | _ => none

/-- The items of an array. -/
def items? : Json → Option (List Json)
  | .array items => some items
  | _ => none

/-- The value of a natural number. -/
def ofNat (n : Nat) : Json := .number (Float.ofNat n)

/-- An array of strings. -/
def ofStrings (strings : List String) : Json := .array (strings.map .string)

end Json

end CodeGrade
