import NetworkPolicy.Json.Value
import NetworkPolicy.Store.Postgres

/-! How a Postgres store is reached: its settings as a JSON value, and opening the store on the
server that they name. -/

namespace NetworkPolicy.PostgresConfig

open Json.Reader (field natural optional record text)

/-- Reads the settings of a store. -/
def reader : Json.Reader PostgresConfig := record "PostgresStoreConfig" [
  field "connection" text fun v c => { c with connection := v },
  field "max_connections" (natural 32 "u32") fun v c => { c with maxConnections := v },
  field "connect_timeout_ms" (natural 64 "u64") fun v c => { c with connectTimeout := v },
  field "statement_timeout_ms" (natural 64 "u64") fun v c =>
    { c with statementTimeout := v },
  field "tag_length" (natural 8 "u8") fun v c => { c with tagLength := v },
  field "pool_size" (optional (natural 64 "u64")) (fun v c => { c with poolSize := v })
    false] {}

/-- The settings as a value, under the names that they are read by. -/
def toJson (c : PostgresConfig) : Json := .object [
  ("connection", .text c.connection),
  ("max_connections", .natural c.maxConnections),
  ("connect_timeout_ms", .natural c.connectTimeout),
  ("statement_timeout_ms", .natural c.statementTimeout),
  ("tag_length", .natural c.tagLength),
  ("pool_size", Json.optional .natural c.poolSize)]

/-- Opens the store on the server that its connection text leads to. The other settings are checked
before the server is looked for. -/
def connect (c : PostgresConfig) (reach : String → Except String Database.Server) :
    Except PostgresError PostgresStore := do
  let _ ← PostgresStore.checkConfig c
  let server ← (reach c.connection).mapError .database
  let (r, s) := PostgresStore.openOn c server
  r
  return s

end NetworkPolicy.PostgresConfig
