import NetworkPolicy.Config.Basic
import NetworkPolicy.Json.Value
import NetworkPolicy.Toml.Read

/-! The settings as a TOML document, and as a JSON value. -/

namespace NetworkPolicy

open Toml (Reader)
open Toml.Reader (Field field text bool natural present choice record)

def SinkKind.options : List (String × SinkKind) :=
  [("stderr", .stderr), ("file", .file), ("none", .none)]

def Backend.options : List (String × Backend) :=
  [("memory", .memory), ("sqlite", .sqlite), ("postgres", .postgres)]

def JournalMode.options : List (String × JournalMode) := [("wal", .wal), ("delete", .delete)]

def SyncMode.options : List (String × SyncMode) := [("full", .full), ("normal", .normal)]

/-- The name of one of some named values. -/
def nameIn {α : Type} [BEq α] (options : List (String × α)) (a : α) : String :=
  ((options.find? (·.2 == a)).map (·.1)).getD ""

namespace Config

def u16 : Reader UInt16 := Toml.Reader.port

def u64 : Reader Nat := natural 64 "u64"

/-- A number that the server counts things in memory with. -/
def size : Reader Nat := natural 64 "usize"

def filePath : Reader (Option String) := present (text "path string")

def Listener.reader : Reader Listener := record "ServerConfig" [
  field "listen_host" text fun v a => { a with host := v },
  field "listen_port" u16 fun v a => { a with port := v },
  field "internal_listen_port" (present u16) fun v a => { a with internalPort := v },
  field "max_body_bytes" size fun v a => { a with maxBodyBytes := v }] {}

def Logging.reader : Reader Logging := record "LoggingConfig" [
  field "log_prefix" text fun v a => { a with label := v },
  field "log_level" text fun v a => { a with level := .ofText v },
  field "sink" (choice SinkKind.options) fun v a => { a with sink := v },
  field "path" filePath fun v a => { a with path := v }] {}

def TokenService.reader : Reader TokenService := record "UaaConfig" [
  field "url" text fun v a => { a with url := v },
  field "port" u16 fun v a => { a with port := v },
  field "client" text fun v a => { a with client := v },
  field "client_secret" text fun v a => { a with secret := v },
  field "ca_cert_path" filePath fun v a => { a with caPath := v },
  field "skip_ssl_validation" bool fun v a => { a with skipTlsValidation := v },
  field "request_timeout_ms" u64 fun v a => { a with timeoutMillis := v }] {}

def Directory.reader : Reader Directory := record "CcConfig" [
  field "url" text fun v a => { a with url := v },
  field "request_timeout_ms" u64 fun v a => { a with timeoutMillis := v }] {}

def Database.reader : Reader Database := record "DatabaseConfig" [
  field "backend" (choice Backend.options) fun v a => { a with backend := v },
  field "path" filePath fun v a => { a with path := v },
  field "connection" (present text) fun v a => { a with connection := v },
  field "timeout_secs" u64 fun v a => { a with timeoutSeconds := v },
  field "max_connections" (natural 32 "u32") fun v a => { a with maxConnections := v },
  field "sqlite_journal_mode" (choice JournalMode.options) fun v a => { a with journal := v },
  field "sqlite_sync_mode" (choice SyncMode.options) fun v a => { a with sync := v }] {}

def Policies.reader : Reader Policies := record "PolicyConfig" [
  field "tag_length" (natural 8 "u8") fun v a => { a with tagLength := v },
  field "max_policies" size fun v a => { a with maxPolicies := v },
  field "cleanup_interval_secs" u64 fun v a => { a with cleanupSeconds := v },
  field "enable_space_developer_self_service" bool fun v a => { a with selfService := v },
  field "directory_batch_size" size fun v a => { a with batchSize := v }] {}

def Metrics.reader : Reader Metrics := record "MetricsConfig" [
  field "emit_interval_secs" u64 fun v a => { a with emitSeconds := v }] {}

/-- Reads the settings; what a document leaves out is as in the default settings. -/
def reader : Reader Config := record "PolicyServerConfig" [
  field "server" Listener.reader fun v a => { a with server := v },
  field "logging" Logging.reader fun v a => { a with logging := v },
  field "uaa" TokenService.reader fun v a => { a with tokens := v },
  field "cc" Directory.reader fun v a => { a with directory := v },
  field "database" Database.reader fun v a => { a with database := v },
  field "policy" Policies.reader fun v a => { a with policy := v },
  field "metrics" Metrics.reader fun v a => { a with metrics := v }] {}

/-- The settings as a value, under the names of the document. -/
def toJson (c : Config) : Json :=
  let s := c.server
  let l := c.logging
  let t := c.tokens
  let d := c.database
  let p := c.policy
  let optionalText : Option String → Json := Json.optional .text
  .object [
    ("server", .object [
      ("listen_host", .text s.host),
      ("listen_port", .natural s.port.toNat),
      ("internal_listen_port", Json.optional (fun (n : UInt16) => .natural n.toNat) s.internalPort),
      ("max_body_bytes", .natural s.maxBodyBytes)]),
    ("logging", .object [
      ("log_prefix", .text l.label),
      ("log_level", .text l.level.name),
      ("sink", .text (nameIn SinkKind.options l.sink)),
      ("path", optionalText l.path)]),
    ("uaa", .object [
      ("url", .text t.url),
      ("port", .natural t.port.toNat),
      ("client", .text t.client),
      ("client_secret", .text t.secret),
      ("ca_cert_path", optionalText t.caPath),
      ("skip_ssl_validation", .bool t.skipTlsValidation),
      ("request_timeout_ms", .natural t.timeoutMillis)]),
    ("cc", .object [
      ("url", .text c.directory.url),
      ("request_timeout_ms", .natural c.directory.timeoutMillis)]),
    ("database", .object [
      ("backend", .text (nameIn Backend.options d.backend)),
      ("path", optionalText d.path),
      ("connection", optionalText d.connection),
      ("timeout_secs", .natural d.timeoutSeconds),
      ("max_connections", .natural d.maxConnections),
      ("sqlite_journal_mode", .text (nameIn JournalMode.options d.journal)),
      ("sqlite_sync_mode", .text (nameIn SyncMode.options d.sync))]),
    ("policy", .object [
      ("tag_length", .natural p.tagLength),
      ("max_policies", .natural p.maxPolicies),
      ("cleanup_interval_secs", .natural p.cleanupSeconds),
      ("enable_space_developer_self_service", .bool p.selfService),
      ("directory_batch_size", .natural p.batchSize)]),
    ("metrics", .object [("emit_interval_secs", .natural c.metrics.emitSeconds)])]

end Config
end NetworkPolicy
