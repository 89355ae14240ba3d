import CoreVpn.Lib.Machine
import CoreVpn.Server.ControlPackets

namespace CoreVpn.Server.Handlers

open Lib.Computation Lib.Wire Lib.Text Core.Networks Crypto.Keys
open Protocol.Errors Protocol.Opcodes Protocol.Reliable Protocol.Sessions Protocol.Sending
open Protocol.TlsHandlers Events Connections KeyExchange ControlPackets

variable {C : Type} (H : Host C) (env : Env)

/-- A response that is still good answers a repeated hard reset. -/
def cachedResponse (peerAddr : SocketAddr) (s : VpnServer C) : Option Bytes :=
  match s.connections peerAddr with
  | some existing =>
    if !existing.isStale env.clock.now 30000000000 then existing.hardResetResponse else none
  | none => none

def enableTlsAuth (session : ProtocolSession) : ProtocolSession :=
  match H.tlsAuthKey with
  | some taKey =>
    match HmacAuth.fromTaKey taKey true none with
    | .ok hmacAuth => session.setTlsAuth hmacAuth
    | .error _ => session
  | none => session

def initTls : Outcome ServerError (Option (TlsHandler C)) :=
  if H.tlsConfigured then do
    let tls ← Outcome.mapFault .tlsInitFailed (TlsHandler.new H.engine)
    return some tls
  else return none

def openConnection (peerAddr : SocketAddr) (data : Bytes) : Outcome ServerError (Bytes × Connection C) := do
  let conn : Connection C := Connection.new env peerAddr (getCipherSuite H.config)
  let (_, session) ← Outcome.mapFault .protocol
    (evaluate (ProtocolSession.processPacket H.primitives env.clock data) (enableTlsAuth H conn.protocol))
  let tls ← initTls H
  let (response, session) ← Outcome.mapFault .protocol
    (evaluate (createHardResetResponse H.primitives env.clock) session)
  return (response, { conn with protocol := session, tls, hardResetResponse := some response })

def noteAttempt (peerAddr : SocketAddr) : List ConnectionEvent :=
  if H.config.connectionEvents.attempts then
    [ConnectionEventBuilder.attempt env.connectionId env.timestamp peerAddr]
  else []

/-- The connection is stored only once the response is sent. One that was
there before is dropped. -/
def handleHardReset (peerAddr : SocketAddr) (data : Bytes) (s : VpnServer C) : Response × VpnServer C :=
  match cachedResponse env peerAddr s with
  | some response =>
    let sends := sendEach env peerAddr 0 [response]
    ({ result := sends.1, sent := sends.2 }, s)
  | none =>
    let logged := noteAttempt H env peerAddr
    match openConnection H env peerAddr data with
    | .ok (response, conn) =>
      if env.sends 0 then
        ({ sent := [(peerAddr, response)], logged },
          { s with connections := Function.update s.connections peerAddr (some conn) })
      else ({ result := .error (.error .io), logged }, s)
    | .error e => ({ result := .error e, logged }, s)

def pingPayload : Bytes :=
  [0x2a, 0x18, 0x7b, 0xf3, 0x64, 0x1e, 0xb4, 0xcb, 0x07, 0xed, 0x2d, 0x0a, 0x98, 0x1f, 0xc7, 0x48]

/-- Encrypt something for the client. An error is only reported in the server's own log. -/
def encryptFor (data : Bytes) : Handler C Unit := do
  match ← attempt (onProtocol (ProtocolSession.encryptData H.primitives data)) with
  | .ok encrypted =>
    onConn (Connection.addBytesTx encrypted.length)
    sendLater [encrypted]
  | .error (_ : ServerError) => return ()

/-- What a decrypted packet is for: a ping is answered, a packet long enough
for an IP header goes to the TUN device. -/
def dispatchData (ipPacket : Bytes) : Handler C (Option Bytes) := do
  if ipPacket = pingPayload then
    encryptFor H pingPayload
    return none
  else return if ipPacket.length ≥ 20 then some ipPacket else none

def dataBody (data : Bytes) : Handler C (Option Bytes) := do
  onConn (Connection.touch env.clock.now)
  let s ← get
  if s.conn.protocol.state = .established then
    onConn (Connection.addBytesRx data.length)
    match ← onProtocol (ProtocolSession.processPacket H.primitives env.clock data) with
    | .data ipPacket => dispatchData H ipPacket
    | _ => return none
  else return none

def sendSome (packets : List (SocketAddr × Bytes)) : List (SocketAddr × Bytes) :=
  (packets.zipIdx.filter fun p => env.sends p.2).map Prod.fst

def handleDataPacket (peerAddr : SocketAddr) (data : Bytes) (s : VpnServer C) : Response × VpnServer C :=
  match s.connections peerAddr with
  | some conn =>
    let r := onConnection s peerAddr conn (dataBody H env data)
    match r.1.1 with
    | .ok tunData =>
      ({ sent := sendSome env (r.1.2.packets.map fun p => (peerAddr, p)), tun := tunData.toList }, r.2)
    | .error e => ({ result := .error e }, r.2)
  | none => ({}, s)

def handlePacket (peerAddr : SocketAddr) (data : Bytes) (s : VpnServer C) : Response × VpnServer C :=
  match data with
  | [] => ({}, s)
  | first :: _ =>
    match OpCode.fromByte first with
    | .error e => ({ result := Outcome.mapFault .protocol (.error e) }, s)
    | .ok opcode =>
      match opcode with
      | .hardResetClientV2 | .hardResetClientV3 => handleHardReset H env peerAddr data s
      | .controlV1 | .ackV1 | .softResetV1 => handleControlPacket H env peerAddr data s
      | .dataV1 | .dataV2 => handleDataPacket H env peerAddr data s
      | _ => ({}, s)

def destination (ipPacket : Bytes) : Option Ipv4Addr :=
  if ipPacket.length < 20 then none
  else if ipPacket.getD 0 0 >>> 4 = 4 then
    some (ofOctets (ipPacket.getD 16 0) (ipPacket.getD 17 0) (ipPacket.getD 18 0) (ipPacket.getD 19 0))
  else none

def routesTo (s : VpnServer C) (dest : Ipv4Addr) (addr : SocketAddr) : Bool :=
  match s.connections addr with
  | some conn => conn.vpnIp = some dest && conn.protocol.state = .established
  | none => false

def encryptTo (data : Bytes) (addr : SocketAddr) (s : VpnServer C) :
    List (SocketAddr × Bytes) × VpnServer C :=
  match s.connections addr with
  | some conn =>
    let r := onConnection s addr conn (encryptFor H data)
    (r.1.2.packets.map fun p => (conn.peerAddr, p), r.2)
  | none => ([], s)

/-- The connections are searched in the order in which the hash map happens
to list them, which comes from outside. -/
def handleTunPacket (order : List SocketAddr) (ipPacket : Bytes) (s : VpnServer C) :
    Response × VpnServer C :=
  match destination ipPacket with
  | some dest =>
    match order.find? (routesTo s dest) with
    | some addr =>
      let r := encryptTo H ipPacket addr s
      ({ sent := sendSome env r.1 }, r.2)
    | none => ({}, s)
  | none => ({}, s)

def pingOne (addr : SocketAddr) (s : VpnServer C) : List (SocketAddr × Bytes) × VpnServer C :=
  match s.connections addr with
  | some conn => if conn.protocol.state = .established then encryptTo H pingPayload addr s else ([], s)
  | none => ([], s)

def pingEach : List SocketAddr → VpnServer C → List (SocketAddr × Bytes) × VpnServer C
  | [], s => ([], s)
  | addr :: rest, s =>
    let r := pingOne H addr s
    let rs := pingEach rest r.2
    (r.1 ++ rs.1, rs.2)

def sendKeepalivePings (order : List SocketAddr) (s : VpnServer C) : Response × VpnServer C :=
  let r := pingEach H order s
  ({ sent := sendSome env r.1 }, r.2)

/-- Send the deferred reply. The user is recorded before it is known whether
the reply can be sent. -/
def completeAuth (auth : AuthCompleted) : Handler C Unit := do
  let s ← get
  match s.conn.pendingPushReply with
  | some reply =>
    onConn fun conn => { conn with
      pendingPushReply := none, username := some auth.email, authMethod := .oauth2 }
    if s.conn.tls.isSome then
      if ← tryWrite H (asBytes (reply ++ "\x00")) then
        flushTls H env.clock
        onConn fun conn => { conn with protocol := conn.protocol.setState env.clock.now .established }
      else return ()
    else return ()
  | none => return ()

/-- The token leads to an address, and the address to whatever connection is
stored there now. -/
def handleAuthCompleted (auth : AuthCompleted) (s : VpnServer C) : Response × VpnServer C :=
  match s.pendingOauths auth.state with
  | some pending =>
    let s := { s with pendingOauths := Function.update s.pendingOauths auth.state none }
    match s.connections pending.peerAddr with
    | some conn =>
      let r := onConnection s pending.peerAddr conn (completeAuth H env auth)
      (deliver env pending.peerAddr r.1, r.2)
    | none => ({}, s)
  | none => ({}, s)

structure StaleConnection where
  addr : SocketAddr
  connectionId : ConnectionId
  username : Option String
  duration : Duration
  stats : TransferStats

def staleConnections (timeout : Duration) (order : List SocketAddr) (s : VpnServer C) :
    List StaleConnection :=
  order.filterMap fun addr => match s.connections addr with
    | some conn =>
      if conn.isStale env.clock.now timeout then
        some ⟨addr, conn.connectionId, conn.username, conn.duration env.clock.now, conn.stats⟩
      else none
    | none => none

def noteDisconnection (stale : StaleConnection) : ConnectionEvent :=
  ConnectionEventBuilder.disconnected stale.connectionId env.timestamp stale.addr stale.username
    .idleTimeout stale.duration (some stale.stats)

def removeConnections (stale : List StaleConnection) (s : VpnServer C) : VpnServer C :=
  stale.foldl (fun s c => { s with connections := Function.update s.connections c.addr none }) s

/-- The server together with its cleanup task, which collects the stale
connections, logs them, and removes them later, while the handlers go on. -/
structure System (C : Type) where
  server : VpnServer C
  stale : List StaleConnection

/-- One of the main loop's events, or one of the two locked sections of the cleanup. -/
inductive Event where
  | packet (env : Env) (peerAddr : SocketAddr) (data : Bytes)
  | tunPacket (env : Env) (order : List SocketAddr) (ipPacket : Bytes)
  | keepalive (env : Env) (order : List SocketAddr)
  | authCompleted (env : Env) (auth : AuthCompleted)
  | collectStale (env : Env) (timeout : Duration) (order : List SocketAddr)
  | removeStale

def System.onServer (s : System C) (r : Response × VpnServer C) : Response × System C :=
  (r.1, { s with server := r.2 })

/-- There is one cleanup task, which finishes a round before it starts another. -/
def step (s : System C) : Event → Response × System C
  | .packet env peerAddr data => s.onServer (handlePacket H env peerAddr data s.server)
  | .tunPacket env order ipPacket => s.onServer (handleTunPacket H env order ipPacket s.server)
  | .keepalive env order => s.onServer (sendKeepalivePings H env order s.server)
  | .authCompleted env auth => s.onServer (handleAuthCompleted H env auth s.server)
  | .collectStale env timeout order =>
    if s.stale.isEmpty then
      let stale := staleConnections env timeout order s.server
      ({ logged := stale.map (noteDisconnection env) }, { s with stale })
    else ({}, s)
  | .removeStale => ({}, ⟨removeConnections s.stale s.server, []⟩)

def start (config : ServerConfig) : Outcome Core.AddressPools.CoreError (System C) := do
  let server ← VpnServer.new config
  return ⟨server, []⟩

end CoreVpn.Server.Handlers
