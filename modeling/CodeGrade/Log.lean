import CodeGrade.Json.Printer
import CodeGrade.Paint

/-!
# The log

What the program tells about its work, apart from its results. An entry is written if its level is
no lower than the level at which the log runs.

## Main definitions

* `LogLevel`, `LogEntry`: levels and entries.
* `LogThreshold`: the level at which a log runs.
* `LogEntry.render`: an entry as it is written.
-/

namespace CodeGrade

/-- The levels of entries. -/
inductive LogLevel where
  | debug
  | info
  | warn
  | error
  deriving DecidableEq, Repr

namespace LogLevel

/-- The place of a level among the levels. -/
def rank : LogLevel → Nat
  | debug => 0
  | info => 1
  | warn => 2
  | error => 3

/-- The level as an entry shows it, five characters wide. -/
def label : LogLevel → String
  | debug => "DEBUG"
  | info => "INFO "
  | warn => "WARN "
  | error => "ERROR"

/-- The style of entries of a level. -/
def style : LogLevel → Style
  | debug => .dim
  | info => .cyan
  | warn => .yellow
  | error => .red

end LogLevel

/-- The name of a level at which a log runs. -/
structure LogThreshold where
  name : String
  deriving DecidableEq, Repr

namespace LogThreshold

/-- The level at which a log runs unless told otherwise. -/
def standard : LogThreshold := ⟨"info"⟩

/-- The rank of a level at which a log runs. At `silent`, and at a name without a rank, nothing is
written. -/
def rank? (t : LogThreshold) : Option Nat :=
  [("debug", 0), ("info", 1), ("warn", 2), ("error", 3), ("silent", 4)].lookup t.name

/-- Names that are accepted as levels though they have no rank. -/
def unranked : List String :=
  ["constructor", "hasOwnProperty", "isPrototypeOf", "propertyIsEnumerable", "toLocaleString",
    "toString", "valueOf", "__proto__", "__defineGetter__", "__defineSetter__", "__lookupGetter__",
    "__lookupSetter__"]

/-- The level that a setting of the environment asks for. What is no level is ignored. -/
def ofSetting (setting : Option String) : LogThreshold :=
  match setting with
  | some name =>
    if ((⟨name⟩ : LogThreshold).rank?).isSome || unranked.contains name then ⟨name⟩ else standard
  | none => standard

/-- Whether a log at this level writes entries of the given one. -/
def admits (t : LogThreshold) (level : LogLevel) : Bool := t.rank?.any (· ≤ level.rank)

end LogThreshold

/-- An entry of the log: a message, perhaps with data. -/
structure LogEntry where
  level : LogLevel
  message : String
  data : Option Json := none

namespace LogEntry

/-- The data of an entry about a failure: its description, and its trace if there is one. -/
def failureData (data : List (String × Json)) (description : String) (trace : Option String) : Json :=
  let data := Json.insert "error" (.string description) data
  .object (match trace with
    | some trace => Json.insert "stack" (.string trace) data
    | none => data)

/-- The entry as it is written, with the time it is written at. -/
def render (color : Bool) (time : String) (entry : LogEntry) : String :=
  let label := entry.level.label
  let head := paint color [entry.level.style] s!"[{time}] [quality-gauge] {label}"
  let data :=
    match entry.data with
    | some data => " " ++ paint color [.dim] data.compress
    | none => ""
  head ++ " " ++ entry.message ++ data

end LogEntry

/-- The lines of a log that runs at the given level. -/
def logLines (threshold : LogThreshold) (color : Bool) (time : String) (entries : List LogEntry) :
    List String :=
  (entries.filter fun entry => threshold.admits entry.level).map (LogEntry.render color time)

end CodeGrade
