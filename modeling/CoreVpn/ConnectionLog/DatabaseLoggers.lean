import CoreVpn.Lib.Calendar
import CoreVpn.Lib.Computation
import CoreVpn.Server.Events

namespace CoreVpn.ConnectionLog.DatabaseLoggers

open Lib.Computation Lib.Text Core.Networks Server.Events

/-- How the values of an event are written, and read again. -/
structure Texts where
  uuid : ConnectionId → String
  parseUuid : String → Option ConnectionId
  socketAddr : SocketAddr → String
  parseSocketAddr : String → Option SocketAddr
  ipAddr : IpAddr → String
  parseIpAddr : String → Option IpAddr
  rfc3339 : Timestamp → String
  parseRfc3339 : String → Option Timestamp
  toLowercase : String → String

section Columns

inductive Column where
  | null
  | integer (n : Int64)
  | text (s : String)
  deriving DecidableEq

def Column.ofText : Option String → Column
  | some s => .text s
  | none => .null

def Column.ofInteger : Option Int64 → Column
  | some n => .integer n
  | none => .null

/-- A missing value is an error for a type that is not optional. -/
def Column.tryText : Column → Option String
  | .text s => some s
  | _ => none

def Column.tryInteger : Column → Option Int64
  | .integer n => some n
  | _ => none

/-- Texts are compared byte by byte. Numbers come before them, and a missing
value is not comparable. -/
def Column.isBefore (limit : String) : Column → Bool
  | .text s => decide (asBytes s < asBytes limit)
  | .integer _ => true
  | .null => false

structure Row where
  connectionId : Column := .null
  eventType : Column := .null
  timestamp : Column := .null
  clientAddr : Column := .null
  username : Column := .null
  vpnIp : Column := .null
  authMethod : Column := .null
  authResult : Column := .null
  disconnectReason : Column := .null
  durationSecs : Column := .null
  bytesRx : Column := .null
  bytesTx : Column := .null
  packetsRx : Column := .null
  packetsTx : Column := .null
  oldAddr : Column := .null
  newAddr : Column := .null
  success : Column := .null
  protocolVersion : Column := .null
  clientInfo : Column := .null
  details : Column := .null
  deriving DecidableEq

end Columns

section Names

def authMethodName : AuthMethod → String
  | .certificate => "Certificate"
  | .usernamePassword => "UsernamePassword"
  | .oauth2 => "OAuth2"
  | .saml => "Saml"
  | .psk => "Psk"
  | .unknown => "Unknown"

def authResultName : AuthResult → String
  | .success => "Success"
  | .invalidCredentials => "InvalidCredentials"
  | .expired => "Expired"
  | .notAuthorized => "NotAuthorized"
  | .rateLimited => "RateLimited"
  | .providerError => "ProviderError"
  | .timeout => "Timeout"
  | .unknown => "Unknown"

def disconnectReasonName : DisconnectReason → String
  | .clientDisconnect => "ClientDisconnect"
  | .serverDisconnect => "ServerDisconnect"
  | .idleTimeout => "IdleTimeout"
  | .sessionTimeout => "SessionTimeout"
  | .authFailure => "AuthFailure"
  | .protocolError => "ProtocolError"
  | .connectionReset => "ConnectionReset"
  | .serverShutdown => "ServerShutdown"
  | .adminTerminated => "AdminTerminated"
  | .renegotiationFailure => "RenegotiationFailure"
  | .unknown => "Unknown"

variable (toLowercase : String → String)

def parseAuthMethod (s : String) : AuthMethod :=
  match toLowercase s with
  | "certificate" => .certificate
  | "usernamepassword" => .usernamePassword
  | "oauth2" => .oauth2
  | "saml" => .saml
  | "psk" => .psk
  | _ => .unknown

def parseAuthResult (s : String) : AuthResult :=
  match toLowercase s with
  | "success" => .success
  | "invalidcredentials" => .invalidCredentials
  | "expired" => .expired
  | "notauthorized" => .notAuthorized
  | "ratelimited" => .rateLimited
  | "providererror" => .providerError
  | "timeout" => .timeout
  | _ => .unknown

def parseDisconnectReason (s : String) : DisconnectReason :=
  match toLowercase s with
  | "clientdisconnect" => .clientDisconnect
  | "serverdisconnect" => .serverDisconnect
  | "idletimeout" => .idleTimeout
  | "sessiontimeout" => .sessionTimeout
  | "authfailure" => .authFailure
  | "protocolerror" => .protocolError
  | "connectionreset" => .connectionReset
  | "servershutdown" => .serverShutdown
  | "adminterminated" => .adminTerminated
  | "renegotiationfailure" => .renegotiationFailure
  | _ => .unknown

end Names

section Writing

variable (T : Texts)

def asSecs (duration : Nat) : UInt64 := UInt64.ofNat (duration / 1000000000)

def fromSecs (secs : UInt64) : Nat := secs.toNat * 1000000000

def insertEvent : ConnectionEvent → Row
  | .connectionAttempt id timestamp clientAddr protocolVersion =>
    { connectionId := .text (T.uuid id)
      eventType := .text "connection_attempt"
      timestamp := .text (T.rfc3339 timestamp)
      clientAddr := .text (T.socketAddr clientAddr)
      protocolVersion := .ofText protocolVersion }
  | .authentication id timestamp clientAddr username authMethod result details =>
    { connectionId := .text (T.uuid id)
      eventType := .text "authentication"
      timestamp := .text (T.rfc3339 timestamp)
      clientAddr := .text (T.socketAddr clientAddr)
      username := .ofText username
      authMethod := .text (authMethodName authMethod)
      authResult := .text (authResultName result)
      details := .ofText details }
  | .connected id timestamp clientAddr username vpnIp authMethod clientInfo =>
    { connectionId := .text (T.uuid id)
      eventType := .text "connected"
      timestamp := .text (T.rfc3339 timestamp)
      clientAddr := .text (T.socketAddr clientAddr)
      username := .ofText username
      vpnIp := .text (T.ipAddr vpnIp)
      authMethod := .text (authMethodName authMethod)
      clientInfo := .ofText clientInfo }
  | .disconnected id timestamp clientAddr username reason duration stats =>
    { connectionId := .text (T.uuid id)
      eventType := .text "disconnected"
      timestamp := .text (T.rfc3339 timestamp)
      clientAddr := .text (T.socketAddr clientAddr)
      username := .ofText username
      disconnectReason := .text (disconnectReasonName reason)
      durationSecs := .integer (asSecs duration).toInt64
      bytesRx := .ofInteger (stats.map fun s => s.bytesRx.toInt64)
      bytesTx := .ofInteger (stats.map fun s => s.bytesTx.toInt64)
      packetsRx := .ofInteger (stats.map fun s => s.packetsRx.toInt64)
      packetsTx := .ofInteger (stats.map fun s => s.packetsTx.toInt64) }
  | .ipChange id timestamp oldAddr newAddr username =>
    { connectionId := .text (T.uuid id)
      eventType := .text "ip_change"
      timestamp := .text (T.rfc3339 timestamp)
      oldAddr := .text (T.socketAddr oldAddr)
      newAddr := .text (T.socketAddr newAddr)
      username := .ofText username }
  | .renegotiation id timestamp clientAddr success =>
    { connectionId := .text (T.uuid id)
      eventType := .text "renegotiation"
      timestamp := .text (T.rfc3339 timestamp)
      clientAddr := .text (T.socketAddr clientAddr)
      success := .integer (if success then 1 else 0) }

end Writing

section Reading

variable (T : Texts)

/-- The statistics are taken for absent if neither number of bytes is there. -/
def parseStats (row : Row) : Option TransferStats :=
  let bytesRx := row.bytesRx.tryInteger
  let bytesTx := row.bytesTx.tryInteger
  if bytesRx.isSome || bytesTx.isSome then
    some
      { bytesRx := (bytesRx.getD 0).toUInt64
        bytesTx := (bytesTx.getD 0).toUInt64
        packetsRx := (row.packetsRx.tryInteger.getD 0).toUInt64
        packetsTx := (row.packetsTx.tryInteger.getD 0).toUInt64 }
  else none

def parseAddr (column : Column) : Option SocketAddr := column.tryText.bind T.parseSocketAddr

def parseEventRow (row : Row) : Option ConnectionEvent := do
  let eventType ← row.eventType.tryText
  let id ← (← row.connectionId.tryText) |> T.parseUuid
  let timestamp ← (← row.timestamp.tryText) |> T.parseRfc3339
  match eventType with
  | "connection_attempt" =>
    return .connectionAttempt id timestamp (← parseAddr T row.clientAddr) row.protocolVersion.tryText
  | "authentication" =>
    return .authentication id timestamp (← parseAddr T row.clientAddr) row.username.tryText
      (parseAuthMethod T.toLowercase (row.authMethod.tryText.getD ""))
      (parseAuthResult T.toLowercase (row.authResult.tryText.getD "")) row.details.tryText
  | "connected" =>
    return .connected id timestamp (← parseAddr T row.clientAddr) row.username.tryText
      (← (← row.vpnIp.tryText) |> T.parseIpAddr)
      (parseAuthMethod T.toLowercase (row.authMethod.tryText.getD "")) row.clientInfo.tryText
  | "disconnected" =>
    return .disconnected id timestamp (← parseAddr T row.clientAddr) row.username.tryText
      (parseDisconnectReason T.toLowercase (row.disconnectReason.tryText.getD ""))
      (fromSecs (row.durationSecs.tryInteger.getD 0).toUInt64) (parseStats row)
  | "ip_change" =>
    return .ipChange id timestamp (← parseAddr T row.oldAddr) (← parseAddr T row.newAddr) row.username.tryText
  | "renegotiation" =>
    return .renegotiation id timestamp (← parseAddr T row.clientAddr)
      ((row.success.tryInteger.getD 0).toInt32 != 0)
  | _ => none

end Reading

section Purging

variable {ε : Type} (T : Texts)

def nanosPerDay : Nat := 86400000000000

/-- Whatever is older than the retention period is deleted, unless the period is
zero. A cutoff before the earliest day there is panics. -/
def purgeOldEvents (retentionDays : UInt32) (now : Timestamp) : Program (List Row) ε Nat := do
  if retentionDays = 0 then
    return 0
  else
    let span := retentionDays.toNat * nanosPerDay
    if now < span then
      lift (.error .panic)
    else
      let cutoff := T.rfc3339 (now - span)
      let rows ← get
      modify fun rows => rows.filter fun row => !row.timestamp.isBefore cutoff
      return rows.countP fun row => row.timestamp.isBefore cutoff

/-- Rows in the descending order of their timestamps, which are texts. -/
def isRecent (a b : Row) : Bool :=
  match a.timestamp.tryText, b.timestamp.tryText with
  | some s, some t => decide (asBytes t ≤ asBytes s)
  | _, none => true
  | none, some _ => false

def recentRows (limit : Nat) (rows : List Row) : List Row := (rows.mergeSort isRecent).take limit

end Purging

end CoreVpn.ConnectionLog.DatabaseLoggers
