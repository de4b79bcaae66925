import NetworkPolicy.Config.Basic

/-! A document to start from: it names every setting with its default. -/

namespace NetworkPolicy.Config

/-- The lines of the document. -/
def exampleLines : List String := [
  "# policy-server.toml",
  "",
  "[server]",
  "listen_host = \"127.0.0.1\"",
  "listen_port = 4002",
  "# internal_listen_port = 4003",
  "max_body_bytes = 10485760",
  "",
  "[logging]",
  "log_prefix = \"cfnetworking\"",
  "log_level = \"info\"",
  "sink = \"stderr\"",
  "# path = \"/var/log/policy-server.jsonl\"",
  "",
  "[uaa]",
  "url = \"https://uaa.service.internal\"",
  "port = 443",
  "client = \"network-policy\"",
  "client_secret = \"change-me\"",
  "# ca_cert_path = \"/etc/policy-server/uaa_ca.pem\"",
  "skip_ssl_validation = false",
  "request_timeout_ms = 5000",
  "",
  "[cc]",
  "url = \"https://api.service.internal\"",
  "request_timeout_ms = 5000",
  "",
  "[database]",
  "backend = \"sqlite\"",
  "path = \"policy-server.db\"",
  "# connection = \"host=localhost user=policy dbname=policy\"",
  "timeout_secs = 5",
  "max_connections = 8",
  "sqlite_journal_mode = \"wal\"",
  "sqlite_sync_mode = \"full\"",
  "",
  "[policy]",
  "tag_length = 1",
  "max_policies = 100",
  "cleanup_interval_secs = 60",
  "enable_space_developer_self_service = false",
  "directory_batch_size = 100",
  "",
  "[metrics]",
  "emit_interval_secs = 30"]

def exampleText : String := String.join (exampleLines.map (· ++ "\n"))

end NetworkPolicy.Config
