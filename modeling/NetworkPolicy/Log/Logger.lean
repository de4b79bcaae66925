import NetworkPolicy.Files
import NetworkPolicy.Log.Event

/-! Loggers, which name and filter events, and the sinks that they write to. -/

namespace NetworkPolicy

/-- Where events go, with what has gone there. -/
inductive LogSink where
  | memory (events : List LogEvent)
  | stderr (lines : List String)
  /-- The file at a place of a file system. -/
  | file (place : List String) (files : Files)
  | discard

namespace LogSink

/-- Takes in an event. -/
def record (e : LogEvent) : LogSink → LogSink
  | memory events => memory (events ++ [e])
  | stderr lines => stderr (lines ++ [e.line])
  | file place files => file place (files.append place e.line.toUTF8.toList)
  | discard => discard

end LogSink

/-- Names the source of events and the sessions that they belong to, outermost first. Events below
the level are dropped. -/
structure Logger where
  source : String
  level : LogLevel
  sessions : List String := []
  deriving DecidableEq, Repr

namespace Logger

/-- The logger of a session within this one. -/
def session (l : Logger) (name : String) : Logger := { l with sessions := l.sessions ++ [name] }

/-- The message of an event: its name after those of the sessions. -/
def message (l : Logger) (event : String) : String := ".".intercalate (l.sessions ++ [event])

/-- Writes an event unless its level is too low. -/
def emit (l : Logger) (level : LogLevel) (event : String) (data : Json) (millis : Nat)
    (sink : LogSink) : LogSink :=
  if level.rank < l.level.rank then sink
  else sink.record ⟨millis, l.source, l.message event, level, LogEvent.dataOf data⟩

/-- Writes a failure with its cause. -/
def failure (l : Logger) (event cause : String) (data : Json) : Nat → LogSink → LogSink :=
  l.emit .error event (LogEvent.failureData cause data)

/-- Writes a sample in the session of samples. -/
def sample (l : Logger) (s : Sample) : Nat → LogSink → LogSink :=
  let (level, event, data) := s.logged
  (l.session "metrics").emit level event data

end Logger
end NetworkPolicy
