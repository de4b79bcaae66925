/-! How grave a logged event is. -/

namespace NetworkPolicy

inductive LogLevel where
  | debug
  | info
  | error
  | fatal
  deriving DecidableEq, Repr

namespace LogLevel

/-- The graver, the higher. -/
def rank : LogLevel → Nat
  | debug => 0
  | info => 1
  | .error => 2
  | fatal => 3

def name : LogLevel → String
  | debug => "debug"
  | info => "info"
  | .error => "error"
  | fatal => "fatal"

/-- The level of a name in letters of either case; every other text means `info`. -/
def ofText (s : String) : LogLevel :=
  match s.toLower with
  | "debug" => debug
  | "error" => .error
  | "fatal" => fatal
  | _ => info

end LogLevel
end NetworkPolicy
