import CoreVpn.Lib.Calendar
import CoreVpn.Lib.Json
import CoreVpn.Server.Events

namespace CoreVpn.Audit.AuditEvents

open Lib.Calendar Lib.Json Server.Events

inductive AuditSeverity where
  | info
  | low
  | medium
  | high
  | critical
  deriving DecidableEq, Repr

def AuditSeverity.toSyslogSeverity : AuditSeverity → UInt8
  | .info => 6
  | .low => 5
  | .medium => 4
  | .high => 3
  | .critical => 2

def AuditSeverity.toCefSeverity : AuditSeverity → UInt8
  | .info => 1
  | .low => 3
  | .medium => 5
  | .high => 7
  | .critical => 10

def AuditSeverity.name : AuditSeverity → String
  | .info => "info"
  | .low => "low"
  | .medium => "medium"
  | .high => "high"
  | .critical => "critical"

inductive AuditCategory where
  | authentication
  | authorization
  | connection
  | configuration
  | security
  | administrative
  | certificate
  | network
  | system
  deriving DecidableEq, Repr

def AuditCategory.asStr : AuditCategory → String
  | .authentication => "authentication"
  | .authorization => "authorization"
  | .connection => "connection"
  | .configuration => "configuration"
  | .security => "security"
  | .administrative => "administrative"
  | .certificate => "certificate"
  | .network => "network"
  | .system => "system"

inductive AuditOutcome where
  | success
  | failure
  | unknown
  deriving DecidableEq, Repr

/-- The names that Debug formatting gives, and those of serialization. -/
def AuditOutcome.debug : AuditOutcome → String
  | .success => "Success"
  | .failure => "Failure"
  | .unknown => "Unknown"

def AuditOutcome.name : AuditOutcome → String
  | .success => "success"
  | .failure => "failure"
  | .unknown => "unknown"

structure AuditActor where
  actorType : String
  id : Option String := none
  name : Option String := none
  email : Option String := none
  sourceIp : Option String := none
  userAgent : Option String := none
  sessionId : Option String := none
  authMethod : Option String := none

/-- The attributes are in the order in which the map gives them. -/
structure AuditTarget where
  targetType : String
  id : Option String := none
  name : Option String := none
  attributes : List (String × Value) := []

structure AuditFailure where
  code : String
  message : String
  details : List (String × Value) := []

structure AuditEvent where
  id : String
  timestamp : Timestamp
  version : String := "1.0"
  category : AuditCategory
  action : String
  severity : AuditSeverity
  outcome : AuditOutcome
  message : String
  actor : Option AuditActor := none
  target : Option AuditTarget := none
  service : String := "corevpn"
  host : String
  data : List (String × Value) := []
  tags : List String := []
  error : Option AuditFailure := none
  durationMs : Option UInt64 := none
  requestId : Option String := none
  traceId : Option String := none

section Serialization

def nullable (s : Option String) : Value := s.elim .null .string

def number (n : Int) : Value := .number (.ofInt n)

def AuditActor.toJson (actor : AuditActor) : Value :=
  .object
    [("type", .string actor.actorType), ("id", nullable actor.id), ("name", nullable actor.name),
      ("email", nullable actor.email), ("source_ip", nullable actor.sourceIp),
      ("user_agent", nullable actor.userAgent), ("session_id", nullable actor.sessionId),
      ("auth_method", nullable actor.authMethod)]

def AuditTarget.toJson (target : AuditTarget) : Value :=
  .object
    ([("type", .string target.targetType), ("id", nullable target.id), ("name", nullable target.name)] ++
      target.attributes)

def AuditFailure.toJson (error : AuditFailure) : Value :=
  .object [("code", .string error.code), ("message", .string error.message), ("details", .object error.details)]

def AuditEvent.fields (event : AuditEvent) : List (String × Value) :=
  [("id", .string event.id), ("timestamp", .string (toIso8601 clockStart event.timestamp)),
    ("version", .string event.version), ("category", .string event.category.asStr), ("action", .string event.action),
    ("severity", .string event.severity.name), ("outcome", .string event.outcome.name),
    ("message", .string event.message), ("actor", event.actor.elim .null AuditActor.toJson),
    ("target", event.target.elim .null AuditTarget.toJson), ("service", .string event.service),
    ("host", .string event.host), ("data", .object event.data), ("tags", .array (event.tags.map .string)),
    ("error", event.error.elim .null AuditFailure.toJson),
    ("duration_ms", event.durationMs.elim .null fun n => number n.toNat), ("request_id", nullable event.requestId),
    ("trace_id", nullable event.traceId)]

end Serialization

end CoreVpn.Audit.AuditEvents
