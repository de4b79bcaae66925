import NetworkPolicy.Config.Basic
import NetworkPolicy.Network.Address
import NetworkPolicy.Text.Blank
import NetworkPolicy.Url.Basic

/-! Which settings the server starts with. -/

namespace NetworkPolicy.Config

/-- A setting that is refused. -/
inductive Invalid where
  | emptyHost
  | badHost
  | zeroPort
  | zeroInternalPort
  | samePorts
  | zeroBody
  | noLogPath
  | badUrl (setting : String) (fault : Url.Fault)
  | badScheme (setting : String) (scheme : String)
  | zeroTokenPort
  | noClient
  /-- A number that must be above zero. -/
  | zeroTimeout (setting : String)
  /-- A number that must be one at least. -/
  | belowOne (setting : String)
  | noDatabasePath
  | emptyDatabasePath
  | noConnection
  | badTagLength (bytes : Nat)
  /-- The file is larger than any settings are. -/
  | tooLarge
  | notText
  deriving DecidableEq, Repr

/-- The refusal in words. -/
def Invalid.message : Invalid → String
  | emptyHost => "server.listen_host must be non-empty"
  | badHost => "server.listen_host must be an ip address or localhost"
  | zeroPort => "server.listen_port must be non-zero"
  | zeroInternalPort => "server.internal_listen_port must be non-zero"
  | samePorts => "server.internal_listen_port must differ from server.listen_port"
  | zeroBody => "server.max_body_bytes must be > 0"
  | noLogPath => "logging.path is required when logging.sink = \"file\""
  | badUrl setting fault => s!"{setting} is not a valid url: {fault.message}"
  | badScheme setting scheme => s!"{setting} scheme must be http or https, got {scheme}"
  | zeroTokenPort => "uaa.port must be non-zero"
  | noClient => "uaa.client must be non-empty"
  | zeroTimeout setting => s!"{setting} must be > 0"
  | belowOne setting => s!"{setting} must be >= 1"
  | noDatabasePath => "database.path is required for the sqlite backend"
  | emptyDatabasePath => "database.path must be non-empty"
  | noConnection => "database.connection is required for the postgres backend"
  | badTagLength bytes => s!"policy.tag_length: {TagLength.refusal bytes}"
  | tooLarge => "config file exceeds size limit"
  | notText => "config file must be utf-8"

/-- Refuses for a reason where the condition holds. -/
def refuseIf (c : Prop) [Decidable c] (reason : Invalid) : Except Invalid Unit :=
  if c then .error reason else .ok ()

def Listener.validate (s : Listener) : Except Invalid Unit := do
  refuseIf (Text.isBlankText s.host) .emptyHost
  refuseIf (Address.ofChars? s.host.toList = none ∧ s.host ≠ "localhost") .badHost
  refuseIf (s.port = 0) .zeroPort
  refuseIf (s.internalPort = some 0) .zeroInternalPort
  refuseIf (s.internalPort = some s.port) .samePorts
  refuseIf (s.maxBodyBytes = 0) .zeroBody

def Logging.validate (l : Logging) : Except Invalid Unit :=
  refuseIf (l.sink = .file ∧ l.path = none) .noLogPath

/-- Requires an absolute URL of one of the two schemes. -/
def validateUrl (setting url : String) : Except Invalid Unit :=
  match Url.parse url.toList with
  | .error e => .error (.badUrl setting e)
  | .ok u =>
    refuseIf (u.scheme ≠ "http".toList ∧ u.scheme ≠ "https".toList)
      (.badScheme setting (String.ofList u.scheme))

def TokenService.validate (t : TokenService) : Except Invalid Unit := do
  validateUrl "uaa.url" t.url
  refuseIf (t.port = 0) .zeroTokenPort
  refuseIf (Text.isBlankText t.client) .noClient
  refuseIf (t.timeoutMillis = 0) (.zeroTimeout "uaa.request_timeout_ms")

def Directory.validate (d : Directory) : Except Invalid Unit := do
  validateUrl "cc.url" d.url
  refuseIf (d.timeoutMillis = 0) (.zeroTimeout "cc.request_timeout_ms")

def Database.validate (d : Database) : Except Invalid Unit := do
  refuseIf (d.timeoutSeconds = 0) (.belowOne "database.timeout_secs")
  match d.backend with
  | .memory => return
  | .sqlite =>
    refuseIf (d.path = none) .noDatabasePath
    refuseIf (d.path = some "") .emptyDatabasePath
  | .postgres =>
    refuseIf (d.connection.all Text.isBlankText) .noConnection
    refuseIf (d.maxConnections = 0) (.belowOne "database.max_connections")

def Policies.validate (p : Policies) : Except Invalid Unit := do
  refuseIf (TagLength.ofBytes? p.tagLength = none) (.badTagLength p.tagLength)
  refuseIf (p.maxPolicies = 0) (.belowOne "policy.max_policies")
  refuseIf (p.cleanupSeconds = 0) (.belowOne "policy.cleanup_interval_secs")
  refuseIf (p.batchSize = 0) (.belowOne "policy.directory_batch_size")

def Metrics.validate (m : Metrics) : Except Invalid Unit :=
  refuseIf (m.emitSeconds = 0) (.belowOne "metrics.emit_interval_secs")

/-- The first setting that is refused, if any. -/
def validate (c : Config) : Except Invalid Unit := do
  c.server.validate
  c.logging.validate
  c.tokens.validate
  c.directory.validate
  c.database.validate
  c.policy.validate
  c.metrics.validate

end NetworkPolicy.Config
