import CoreVpn.Lib.Utf8
import CoreVpn.Server.KeyExchange

namespace CoreVpn.Server.ControlPackets

open Lib.Computation Lib.Wire Lib.Text Core.Networks Crypto.Keys
open Protocol.Errors Protocol.Opcodes Protocol.Reliable Protocol.Sessions Protocol.Sending
open Protocol.ControlMessages Protocol.TlsHandlers Events Connections KeyExchange

variable {C α : Type}

structure Response where
  result : Outcome ServerError Unit := .ok ()
  sent : List (SocketAddr × Bytes) := []
  logged : List ConnectionEvent := []
  tun : List Bytes := []

variable (H : Host C) (env : Env)

def logEvent (event : ConnectionEvent) : Handler C Unit :=
  modify fun s => { s with logEvents := s.logEvents ++ [event] }

def isHandshakeComplete (s : Ctx C) : Bool :=
  match s.conn.tls with
  | some tls => tls.handshakeComplete
  | none => false

def shouldTryKm (s : Ctx C) : Bool :=
  isHandshakeComplete s &&
    (s.conn.protocol.state = .tlsHandshake || s.conn.protocol.state = .keyExchange)

def beginKeyExchange (conn : Connection C) : Connection C :=
  if conn.protocol.state = .tlsHandshake then
    { conn with protocol := conn.protocol.setState env.clock.now .keyExchange, authMethod := .certificate }
  else conn

def readKeyMethod : Handler C (Option KeyMethodV2) := do
  match ← attempt (onTls .protocol (TlsHandler.readPlaintext H.engine 4096)) with
  | .ok [] => return none
  | .ok bytes =>
    match KeyMethodV2.parse bytes with
    | .ok clientKm => return some clientKm
    | .error .panic => lift (.error .panic)
    | .error (.error _) => return none
  | .error (_ : ServerError) => return none

/-- How far a control packet gets before the address pool comes into play: no
TLS records for the TLS handler, or records outside of a key exchange, or a turn
of the key exchange with the cipher that it settled, if it got that far. -/
inductive Stage where
  | idle
  | records
  | keyExchange (cipher : Option String)
  deriving DecidableEq

def tryKeyExchange : Handler C Stage := do
  onConn (beginKeyExchange env)
  match ← readKeyMethod H with
  | some clientKm =>
    let cipher ← exchangeKeys H env clientKm
    return .keyExchange (some cipher)
  | none => return .keyExchange none

def takeRecords (records : List Bytes) : Handler C Stage := do
  let s ← get
  if s.conn.tls.isSome then
    onTls .tlsProcessingFailed (TlsHandler.processTlsRecords H.engine records)
    flushTls H env.clock
    let s ← get
    if shouldTryKm s then tryKeyExchange H env else return .records
  else return .idle

def noteRenegotiation (peerAddr : SocketAddr) : Handler C Unit := do
  let s ← get
  if H.config.connectionEvents.renegotiations then
    logEvent (ConnectionEventBuilder.renegotiation s.conn.connectionId env.timestamp peerAddr true)
  else return ()

def intake (peerAddr : SocketAddr) (data : Bytes) : Handler C Stage := do
  onConn (Connection.touch env.clock.now)
  match ← onProtocol (ProtocolSession.processPacket H.primitives env.clock data) with
  | .tlsData records => takeRecords H env records
  | .softReset =>
    noteRenegotiation H env peerAddr
    return .idle
  | _ => return .idle

/-- Every turn of the key exchange is logged as a success, whatever came of it. -/
def noteAuthentication (peerAddr : SocketAddr) : Handler C Unit := do
  let s ← get
  if H.config.connectionEvents.authEvents then
    logEvent (ConnectionEventBuilder.authentication s.conn.connectionId env.timestamp peerAddr
      s.conn.username s.conn.authMethod .success)
  else return ()

def isPushRequest (message : Bytes) : Bool :=
  trim (trimEndMatches (fromUtf8Lossy message) '\x00') = "PUSH_REQUEST"

def repeatReply : Option String → Handler C Unit
  | some reply => do
    if ← tryWrite H (asBytes (reply ++ "\x00")) then flushTls H env.clock else return ()
  | none => return ()

def answerPushRequest : Handler C Unit := do
  let s ← get
  if isHandshakeComplete s && s.conn.protocol.state = .established then
    match ← attempt (onTls .protocol (TlsHandler.readPlaintext H.engine 4096)) with
    | .ok bytes =>
      if !bytes.isEmpty && isPushRequest bytes then repeatReply H env s.conn.pendingPushReply
      else return ()
    | .error (_ : ServerError) => return ()
  else return ()

def assignFor (peerAddr : SocketAddr) : Option String → Handler C Unit
  | some cipher => assignAddress H env peerAddr cipher
  | none => return ()

def settle (peerAddr : SocketAddr) : Stage → Handler C Unit
  | .idle => return ()
  | .records => answerPushRequest H env
  | .keyExchange cipher => do
    assignFor H env peerAddr cipher
    noteAuthentication H env peerAddr
    answerPushRequest H env

def collectAck : Handler C Unit := do
  let s ← get
  if s.conn.protocol.reliable.shouldSendAck env.clock.now then
    let ack ← onProtocol (createAckPacket H.primitives env.clock)
    sendLater ack.toList
  else return ()

def collectRetransmits : Handler C Unit := do
  let packets ← onProtocol (getRetransmits H.primitives env.clock)
  sendLater packets

/-- What happens to a control packet while the connections are locked. -/
def controlBody (peerAddr : SocketAddr) (data : Bytes) : Handler C Unit := do
  let stage ← intake H env peerAddr data
  settle H env peerAddr stage
  collectAck H env
  collectRetransmits H env

/-- Run a handler on one connection. Whatever it changes stays changed, also
when it fails. -/
def onConnection (s : VpnServer C) (peerAddr : SocketAddr) (conn : Connection C) (p : Handler C α) :
    (Outcome ServerError α × Ctx C) × VpnServer C :=
  let r := p ⟨conn, s.addressPool, s.pendingOauths, [], []⟩
  (r, { addressPool := r.2.addressPool
        connections := Function.update s.connections peerAddr (some r.2.conn)
        pendingOauths := r.2.pendingOauths })

def sendEach (peerAddr : SocketAddr) : Nat → List Bytes → Outcome ServerError Unit × List (SocketAddr × Bytes)
  | _, [] => (.ok (), [])
  | i, packet :: rest =>
    if env.sends i then
      let r := sendEach peerAddr (i + 1) rest
      (r.1, (peerAddr, packet) :: r.2)
    else (.error (.error .io), [])

/-- The events are logged and the packets sent after the lock is released, and
not at all after an error. -/
def deliver (peerAddr : SocketAddr) (r : Outcome ServerError Unit × Ctx C) : Response :=
  match r.1 with
  | .ok () =>
    let sends := sendEach env peerAddr 0 r.2.packets
    { result := sends.1, sent := sends.2, logged := r.2.logEvents }
  | .error e => { result := .error e }

def handleControlPacket (peerAddr : SocketAddr) (data : Bytes) (s : VpnServer C) : Response × VpnServer C :=
  match s.connections peerAddr with
  | some conn =>
    let r := onConnection s peerAddr conn (controlBody H env peerAddr data)
    (deliver env peerAddr r.1, r.2)
  | none => ({}, s)

end CoreVpn.Server.ControlPackets
