import NetworkPolicy.Client.Services
import NetworkPolicy.Client.Trust
import NetworkPolicy.Config.Validation
import NetworkPolicy.Log.Setup
import NetworkPolicy.Server.World
import NetworkPolicy.Store.Connection
import NetworkPolicy.Store.File
import NetworkPolicy.Store.Opened

/-! How the server is put together from its settings, takes its ports, and logs that it runs. -/

namespace NetworkPolicy

/-- How a task ends that is left to another thread. -/
inductive TaskEnd where
  | finished
  /-- It is gone without a result. -/
  | lost (cause : String)
  /-- It was waited for in vain. -/
  | late
  deriving DecidableEq, Repr

/-- What the server finds where it is started. -/
structure Machine where
  files : Files := {}
  /-- The ports that others listen on. -/
  taken : List UInt16 := []
  /-- The database server that a connection text leads to. -/
  reach : String → Except String Database.Server := fun _ => .error "error connecting to server"
  /-- How the opening of the store ends. -/
  opening : TaskEnd := .finished
  /-- The time, in milliseconds. -/
  clock : Nat := 0

/-- Why the server does not start. -/
inductive StartError where
  | config (cause : String)
  | init (cause : String)
  | transport (cause : String)
  deriving DecidableEq, Repr

/-- The error in words. -/
def StartError.message : StartError → String
  | config c => s!"config error: {c}"
  | init c => s!"init error: {c}"
  | transport c => s!"transport error: {c}"

/-- A time in milliseconds, or the longest that 64 bits hold. -/
def Config.Database.clampedMillis (millis : Nat) : Nat := min millis (Nat.pow 2 64 - 1)

/-- How the settings reach a Postgres store. -/
def Config.Database.postgres (d : Config.Database) (connection : String) (l : TagLength) :
    PostgresConfig where
  connection := connection
  maxConnections := d.maxConnections
  connectTimeout := clampedMillis d.connectMillis
  statementTimeout := clampedMillis d.storeDeadlineMillis
  tagLength := l.bytes

namespace Startup

/-- Opens the store that the settings ask for; the files after it. -/
def openBackend (c : Config) (l : TagLength) (m : Machine) (f : Files) :
    Except StartError (OpenStore × Files) :=
  match c.database.backend with
  | .memory => .ok (.memory (.empty l l.poolSize), f)
  | .sqlite =>
    match c.database.path with
    | none => .error (.config "database.path is required for sqlite")
    | some path =>
      match SqliteStore.openFile f path l l.poolSize with
      | (.ok s, f) => .ok (.sqlite s, f)
      | (.error e, _) => .error (.init s!"sqlite store: {e.message}")
  | .postgres =>
    match c.database.connection with
    | none => .error (.config "database.connection is required for postgres")
    | some connection =>
      match (c.database.postgres connection l).connect m.reach with
      | .ok s => .ok (.postgres s, f)
      | .error e => .error (.init s!"postgres store: {e.message}")

/-- Leaves the opening of the store to another thread, and waits for it as long as a connection may
take. -/
def openStore (c : Config) (m : Machine) (f : Files) : Except StartError (OpenStore × Files) := do
  let l ← (c.policy.tagLength?).mapError fun e => .config s!"invalid config: {e}"
  match m.opening with
  | .finished => openBackend c l m f
  | .lost cause => throw (.init s!"store init task failed: {cause}")
  | .late => throw (.init s!"store connection timed out after {c.database.connectMillis} ms")

variable {τ : Type}

/-- The server over a transport to the other services. -/
def service (c : Config) (send : Client.Transport τ) :
    Except ServiceError (Service OpenStore τ) := do
  let t := c.tokens
  let directory ← Client.Directory.ofText c.directory.url
  return {
    store := OpenStore.store
    watched := true
    collaborators := Client.services send (.ofAddress t.baseUrl t.client t.secret) directory
    limits := c.limits
    logger := c.logging.logger
    samples := .log }

/-- A server that is ready to run, and the world that it finds. -/
structure Ready (τ : Type) where
  service : Service OpenStore τ
  world : World OpenStore τ
  /-- The files once everything is opened. -/
  files : Files

/-- Opens what the server logs to and stores in. -/
def assemble (c : Config) (m : Machine) (checks : Files → Except StartError Unit)
    (send : Client.Transport τ) (peers : τ) : Except StartError (Ready τ) := do
  let (sink, f) ← (LogSink.ofConfig c.logging m.files).mapError fun e => .init s!"log sink: {e}"
  let (store, f) ← openStore c m f
  checks f
  let s ← (service c send).mapError fun e => .init s!"cc client: {e.message}"
  return {
    service := s
    world := { store := store, collaborators := peers, log := sink f, epoch := m.clock }
    files := f }

/-- Whether the certificates that the settings name can be used, by either client. -/
def checkTrust (t : Config.TokenService) (f : Files) : Except StartError Unit :=
  (Certificate.trust f t.caPath t.skipTlsValidation).mapError fun e =>
    .init s!"uaa client: {e.message}"

/-- Puts the server together. -/
def build (c : Config) (m : Machine) (send : Client.Transport τ) (peers : τ) :
    Except StartError (Ready τ) := do
  c.validate.mapError fun e => .config s!"invalid config: {e.message}"
  assemble c m (checkTrust c.tokens) send peers

/-! ### Listening -/

/-- The address of a host name that can be listened on. -/
def hostAddress? (host : String) : Option Address :=
  if host = "localhost" then some (.four [127, 0, 0, 1]) else Address.ofChars? host.toList

/-- Addresses that every machine has: its own network, and any address of it. -/
def isOwn : Address → Bool
  | .four octets => octets.head? = some 127 || octets.all (· == 0)
  | .six groups => groups.dropLast.all (· == 0) && groups.getLast?.any (· ≤ 1)

/-- Takes a port; gives the address that is listened on. -/
def bind (m : Machine) (host : String) (port : UInt16) : Except StartError String :=
  let fail (cause : String) : Except StartError String :=
    .error (.transport s!"bind {host}:{port.toNat} failed: {cause}")
  match hostAddress? host with
  | none => fail "failed to lookup address information: Name or service not known"
  | some a =>
    if !isOwn a then fail "Cannot assign requested address (os error 99)"
    else if m.taken.contains port then fail "Address already in use (os error 98)"
    else .ok (String.ofList (Url.Host.address a).render ++ s!":{port.toNat}")

/-- The addresses that the server listens on. -/
structure Listening where
  external : String
  internal : Option String := none
  deriving DecidableEq, Repr

/-- Takes the ports that the settings name, the external one first. -/
def listen (c : Config.Listener) (m : Machine) : Except StartError Listening := do
  let external ← bind m c.host c.port
  match c.internalPort with
  | none => return { external := external }
  | some port =>
    let internal ← bind { m with taken := c.port :: m.taken } c.host port
    return { external := external, internal := some internal }

end Startup

namespace Service

variable {σ κ : Type} (s : Service σ κ)

/-- Logs that the server begins to listen. -/
def logStart (l : Startup.Listening) : Effect σ κ Unit := do
  let address (a : String) : Json := .object [("addr", .text a)]
  match l.internal with
  | some a => s.log [] .info "starting internal server" (address a)
  | none => pure ()
  s.log [] .info "starting external server" (address l.external)

/-- Logs that the server has ended. -/
def logExit : Effect σ κ Unit := s.log [] .info "exited" (.object [])

end Service
end NetworkPolicy
