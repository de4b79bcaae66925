import NetworkPolicy.Config.Basic
import NetworkPolicy.Log.Logger

/-! The logger and the sink that the settings ask for. -/

namespace NetworkPolicy

/-- The logger that the settings ask for. -/
def Config.Logging.logger (l : Config.Logging) : Logger := ⟨l.source, l.level, []⟩

/-- Opens the sink that the settings ask for: what it is, given the files at the time it is used,
and the files after it was opened. -/
def LogSink.ofConfig (l : Config.Logging) (f : Files) : Except String ((Files → LogSink) × Files) :=
  match l.sink with
  | .stderr => .ok (fun _ => .stderr [], f)
  | .none => .ok (fun _ => .discard, f)
  | .file =>
    match l.path with
    | none => .error "logging.path is required"
    | some path =>
      match f.openAppend path with
      | .ok (place, f) => .ok (.file place, f)
      | .error e => .error e.message

end NetworkPolicy
