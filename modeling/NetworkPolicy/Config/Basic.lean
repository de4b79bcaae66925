import NetworkPolicy.Log.Level
import NetworkPolicy.Policy.Tag

/-! The settings of the policy server. -/

namespace NetworkPolicy

/-- Where log events go. -/
inductive SinkKind where
  | stderr
  | file
  | none
  deriving DecidableEq, Repr

/-- Where policies are kept. -/
inductive Backend where
  | memory
  | sqlite
  | postgres
  deriving DecidableEq, Repr

/-- How an SQLite database keeps its journal. -/
inductive JournalMode where
  | wal
  | delete
  deriving DecidableEq, Repr

/-- How an SQLite database waits for the disk. -/
inductive SyncMode where
  | full
  | normal
  deriving DecidableEq, Repr

namespace Config

/-- Where the server listens, and how large a body it takes. -/
structure Listener where
  host : String := "127.0.0.1"
  port : UInt16 := 4002
  /-- The port of the listing without authentication, if it is served. -/
  internalPort : Option UInt16 := none
  maxBodyBytes : Nat := 10485760
  deriving DecidableEq, Repr

structure Logging where
  label : String := "cfnetworking"
  level : LogLevel := .info
  sink : SinkKind := .stderr
  path : Option String := none
  deriving DecidableEq, Repr

/-- The service that issues and checks tokens. -/
structure TokenService where
  url : String := "https://uaa.service.internal"
  port : UInt16 := 443
  client : String := "network-policy"
  secret : String := ""
  caPath : Option String := none
  skipTlsValidation : Bool := false
  timeoutMillis : Nat := 5000
  deriving DecidableEq, Repr

/-- The directory of applications, spaces and roles. -/
structure Directory where
  url : String := "https://api.service.internal"
  timeoutMillis : Nat := 5000
  deriving DecidableEq, Repr

structure Database where
  backend : Backend := .sqlite
  path : Option String := some "policy-server.db"
  connection : Option String := none
  timeoutSeconds : Nat := 5
  maxConnections : Nat := 8
  journal : JournalMode := .wal
  sync : SyncMode := .full
  deriving DecidableEq, Repr

structure Policies where
  tagLength : Nat := 1
  maxPolicies : Nat := 100
  cleanupSeconds : Nat := 60
  /-- Whether developers may write policies for their own spaces without the scope for it. -/
  selfService : Bool := false
  batchSize : Nat := 100
  deriving DecidableEq, Repr

structure Metrics where
  emitSeconds : Nat := 30
  deriving DecidableEq, Repr

end Config

/-- The settings of the policy server. -/
structure Config where
  server : Config.Listener := {}
  logging : Config.Logging := {}
  tokens : Config.TokenService := {}
  directory : Config.Directory := {}
  database : Config.Database := {}
  policy : Config.Policies := {}
  metrics : Config.Metrics := {}
  deriving DecidableEq, Repr

namespace Config

/-- The source that log events name. -/
def Logging.source (l : Logging) : String :=
  (if l.label.isEmpty then "cfnetworking" else l.label) ++ ".policy-server"

/-- A text without the slashes at its end. -/
def withoutLastSlashes (s : String) : String :=
  String.ofList (s.toList.reverse.dropWhile (· == '/')).reverse

/-- The address that the paths of the token service are appended to. -/
def TokenService.baseUrl (t : TokenService) : String :=
  s!"{withoutLastSlashes t.url}:{t.port.toNat}"

def Database.connectMillis (d : Database) : Nat := d.timeoutSeconds * 1000

/-- How long a store call may take: somewhat less than a connection. -/
def Database.storeDeadlineMillis (d : Database) : Nat := d.connectMillis - 500

/-- Why the settings are refused when the number of bytes of a tag is. -/
def Policies.tagLength? (p : Policies) : Except String TagLength :=
  match TagLength.ofBytes? p.tagLength with
  | some l => .ok l
  | none => .error s!"policy.tag_length: {TagLength.refusal p.tagLength}"

end Config

/-- The limits that requests are served under. -/
structure Limits where
  storeDeadlineMillis : Nat := 4500
  maxPolicies : Nat := 100
  batchSize : Nat := 100
  /-- How long the cleaner waits for an answer of another service. -/
  cleanerMillis : Nat := 5000
  scopeChecking : Bool := true
  maxBodyBytes : Nat := 10485760
  deriving DecidableEq, Repr

/-- The limits that the settings ask for. -/
def Config.limits (c : Config) : Limits where
  storeDeadlineMillis := c.database.storeDeadlineMillis
  maxPolicies := c.policy.maxPolicies
  batchSize := c.policy.batchSize
  scopeChecking := !c.policy.selfService
  maxBodyBytes := c.server.maxBodyBytes

end NetworkPolicy
