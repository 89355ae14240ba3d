import CoreVpn.Audit.AuditEvents
import CoreVpn.Lib.Escapes

namespace CoreVpn.Audit.Formats

open Lib.Calendar Lib.Json Lib.Escapes AuditEvents

inductive AuditFormat where
  | json
  | jsonLines
  | cef
  | leef
  | syslog
  | cloudWatch
  | azureMonitor
  | ocsf
  deriving DecidableEq, Repr

structure FormatConfig where
  format : AuditFormat := .json
  pretty : Bool := false
  cefVendor : String := "PegasusHeavy"
  cefProduct : String := "CoreVPN"
  cefVersion : String := "1.0"
  syslogFacility : UInt8 := 4
  syslogAppName : String := "corevpn"

inductive AuditError where
  | serialization (reason : String)
  | io (reason : String)
  deriving DecidableEq, Repr

section Escaping

def cefTable : Table := [('\\', '\\'), ('|', '|'), ('\n', 'n'), ('\r', 'r'), ('=', '=')]

def leefTable : Table := [('\\', '\\'), ('|', '|'), ('\t', 't'), ('\n', 'n'), ('\r', 'r')]

def syslogTable : Table := [('\\', '\\'), ('"', '"'), (']', ']')]

def escapeCef : String → String := replaceAll cefTable

def escapeLeef : String → String := replaceAll leefTable

def escapeSyslogSd : String → String := replaceAll syslogTable

end Escaping

section Encoders

variable (config : FormatConfig) (event : AuditEvent)

def pair (key value : String) : String := key ++ "=" ++ value

def encodeJsonLines : String := print (.object event.fields) ++ "\n"

def cefActor (actor : AuditActor) : List String :=
  (actor.name.map fun name => pair "suser" (escapeCef name)).toList ++
    (actor.sourceIp.map fun ip => pair "src" ip).toList ++
    (actor.sessionId.map fun session => pair "sproc" (escapeCef session)).toList

def cefTarget (target : AuditTarget) : List String :=
  (target.id.map fun id => pair "duid" (escapeCef id)).toList ++
    (target.name.map fun name => pair "duser" (escapeCef name)).toList

def cefExtensions : List String :=
  [pair "rt" (integer (timestampMillis clockStart event.timestamp)), pair "msg" (escapeCef event.message),
    pair "outcome" event.outcome.debug, pair "cat" event.category.asStr] ++
    event.actor.elim [] cefActor ++ event.target.elim [] cefTarget ++
    [pair "dvchost" (escapeCef event.host), pair "externalId" event.id]

def signatureId : String := event.category.asStr ++ "." ++ event.action

def encodeCef : String :=
  "CEF:0|" ++ escapeCef config.cefVendor ++ "|" ++ escapeCef config.cefProduct ++ "|" ++
    escapeCef config.cefVersion ++ "|" ++ escapeCef (signatureId event) ++ "|" ++ escapeCef event.action ++ "|" ++
    toString event.severity.toCefSeverity.toNat ++ "|" ++ String.intercalate " " (cefExtensions event)

def leefActor (actor : AuditActor) : List String :=
  (actor.name.map fun name => pair "usrName" (escapeLeef name)).toList ++
    (actor.sourceIp.map fun ip => pair "src" ip).toList

def leefExtensions : List String :=
  [pair "devTime" (toRfc3339Opts clockStart 3 event.timestamp), pair "cat" event.category.asStr,
    pair "sev" (toString event.severity.toCefSeverity.toNat), pair "msg" (escapeLeef event.message)] ++
    event.actor.elim [] leefActor ++ [pair "identHostName" (escapeLeef event.host)]

def encodeLeef : String :=
  "LEEF:2.0|" ++ escapeLeef config.cefVendor ++ "|" ++ escapeLeef config.cefProduct ++ "|" ++
    escapeLeef config.cefVersion ++ "|" ++ escapeLeef (signatureId event) ++ "|" ++
    String.intercalate "\t" (leefExtensions event)

def parameter (key value : String) : String := key ++ "=\"" ++ value ++ "\""

def syslogActor (actor : AuditActor) : String :=
  "[actor@32473 " ++ parameter "type" actor.actorType ++
    (actor.name.elim "" fun name => " " ++ parameter "name" (escapeSyslogSd name)) ++
    (actor.sourceIp.elim "" fun ip => " " ++ parameter "sourceIp" ip) ++ "]"

def structuredData : String :=
  "[corevpn@32473 " ++ parameter "eventId" event.id ++ " " ++ parameter "outcome" event.outcome.debug ++ " " ++
    parameter "category" event.category.asStr ++ "]" ++ event.actor.elim "" syslogActor

/-- The priority is a byte and wraps around. -/
def priority : UInt8 := config.syslogFacility * 8 + event.severity.toSyslogSeverity

def syslogHeader : String :=
  "<" ++ toString (priority config event).toNat ++ ">1 " ++ toRfc3339Opts clockStart 6 event.timestamp ++ " " ++
    event.host ++ " " ++ config.syslogAppName ++ " - " ++ signatureId event ++ " " ++ structuredData event ++ " "

def encodeSyslog : String := syslogHeader config event ++ event.message

def encodeCloudwatch : String :=
  print (.object
    ([("timestamp", number (timestampMillis clockStart event.timestamp)), ("message", .string event.message)] ++
      event.fields))

def encodeAzureMonitor : String :=
  print (.object
    ([("TimeGenerated", .string (toRfc3339Opts clockStart 3 event.timestamp)), ("SourceSystem", .string "CoreVPN"),
      ("Category", .string event.category.asStr), ("OperationName", .string event.action),
      ("ResultType", .string event.outcome.debug),
      ("CallerIpAddress", nullable (event.actor.bind AuditActor.sourceIp)),
      ("CallerIdentity", nullable (event.actor.bind AuditActor.name)),
      ("ResourceId", nullable (event.target.bind AuditTarget.id))] ++ event.fields))

def ocsfClass : AuditCategory → Int × String
  | .authentication => (3002, "Authentication")
  | .authorization => (3003, "Authorization")
  | .network | .connection => (4001, "Network Activity")
  | .configuration => (5001, "Configuration")
  | _ => (1001, "Security Finding")

def ocsfSeverity : AuditSeverity → Int
  | .info => 1
  | .low => 2
  | .medium => 3
  | .high => 4
  | .critical => 5

def ocsfStatus : AuditOutcome → Int
  | .success => 1
  | .failure => 2
  | .unknown => 0

def ocsfActor (actor : AuditActor) : Value :=
  .object [("user", .object [("name", nullable actor.name), ("uid", nullable actor.id)])]

def ocsfMetadata : Value :=
  .object
    [("version", .string "1.0.0"),
      ("product", .object
        [("name", .string "CoreVPN"), ("vendor_name", .string "Pegasus Heavy Industries"),
          ("version", .string "0.1.0")]),
      ("uid", .string event.id)]

def encodeOcsf : String :=
  let (classUid, className) := ocsfClass event.category
  print (.object
    ([("class_uid", number classUid), ("class_name", .string className), ("category_uid", number (classUid / 1000)),
      ("category_name", .string event.category.asStr), ("severity_id", number (ocsfSeverity event.severity)),
      ("activity_id", number 1), ("activity_name", .string event.action),
      ("status_id", number (ocsfStatus event.outcome)), ("message", .string event.message),
      ("time", number (timestampMillis clockStart event.timestamp)), ("timezone_offset", number 0),
      ("metadata", ocsfMetadata event), ("actor", event.actor.elim .null ocsfActor)] ++ event.fields))

/-- Indented text is the business of a library, and its encoding does not fail. -/
def encodeJson (toStringPretty : Value → String) : String :=
  if config.pretty then toStringPretty (.object event.fields) else print (.object event.fields)

def encode (toStringPretty : Value → String) : Except AuditError String :=
  match config.format with
  | .json => .ok (encodeJson config event toStringPretty)
  | .jsonLines => .ok (encodeJsonLines event)
  | .cef => .ok (encodeCef config event)
  | .leef => .ok (encodeLeef config event)
  | .syslog => .ok (encodeSyslog config event)
  | .cloudWatch => .ok (encodeCloudwatch event)
  | .azureMonitor => .ok (encodeAzureMonitor event)
  | .ocsf => .ok (encodeOcsf event)

end Encoders

def fileFormat (config : FormatConfig) : FormatConfig :=
  { config with format := if config.format = .json then .jsonLines else config.format }

end CoreVpn.Audit.Formats
