import NetworkPolicy.Json.Value
import NetworkPolicy.Log.Level
import NetworkPolicy.Metrics

/-! Log events and their lines. -/

namespace NetworkPolicy

structure LogEvent where
  /-- When it was logged, in milliseconds. -/
  millis : Nat
  source : String
  message : String
  level : LogLevel
  data : Json
  deriving Repr

namespace LogEvent

def toJson (e : LogEvent) : Json :=
  .object [("timestamp_ms", .natural e.millis), ("source", .text e.source),
    ("message", .text e.message), ("log_level", .text e.level.name), ("data", e.data.canonical)]

/-- The event on a line of its own. -/
def line (e : LogEvent) : String := String.ofList (e.toJson.chars ++ ['\n'])

/-- The data of an event; nothing is an object without members. -/
def dataOf : Json → Json
  | .null => .object []
  | data => data

/-- The data of a failure: an object that names the cause. What is no object is its detail. -/
def failureData (cause : String) : Json → Json
  | .object ms => .sorted (ms ++ [("error", .text cause)])
  | .null => .object [("error", .text cause)]
  | detail => .object [("detail", detail), ("error", .text cause)]

end LogEvent

/-- A duration in milliseconds: whole seconds and the rest are added as floats. -/
def floatMillis (nanos : Nat) : Float :=
  let seconds := (nanos / 1000000000).toFloat + (nanos % 1000000000).toFloat / 1e9
  seconds * 1000.0

/-- A sample as an event: its level, name and data. -/
def Sample.logged : Sample → LogLevel × String × Json
  | duration name nanos =>
    (.debug, "duration",
      .object [("name", .text name), ("value_ms", .ofFloat (floatMillis nanos))])
  | counter name => (.debug, "counter", .object [("delta", .natural 1), ("name", .text name)])
  | value name v unit =>
    (.info, "value", .object [("name", .text name), ("unit", .text unit), ("value", .ofFloat v)])

end NetworkPolicy
