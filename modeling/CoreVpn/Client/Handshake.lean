import CoreVpn.Client.KeyExchange
import CoreVpn.Client.ServerMessages
import CoreVpn.Lib.Machine
import CoreVpn.Protocol.Sending
import CoreVpn.Protocol.TlsHandlers

namespace CoreVpn.Client.Handshake

open Lib.Computation Lib.Machine Lib.Wire Protocol.Errors Protocol.Packets Protocol.ControlMessages
open Protocol.Sessions Protocol.Sending Protocol.TlsHandlers KeyExchange ServerMessages

variable {C α : Type}

/-- How a handshake fails. Most failures are errors of the layers below, with
the text that the client puts in front. -/
inductive HandshakeError where
  | setup (e : ClientError)
  | failed (context : String) (e : ProtocolError)
  | noClientHello
  | message (e : MessageError)
  | tooManyIterations
  | keyExchangeTimeout
  | missingKeyMethod
  deriving DecidableEq

structure Setup (C : Type) where
  primitives : Primitives
  engine : TlsEngine C
  toUppercase : String → String
  toLowercase : String → String
  config : OvpnConfig
  secrets : Secrets
  sessionId : SessionId

structure Link (C : Type) where
  session : ProtocolSession
  tls : TlsHandler C
  intake : Intake
  sent : List Bytes

abbrev Work (C α : Type) := Program (Link C) HandshakeError α

def onSession (context : String) (p : Program ProtocolSession ProtocolError α) : Work C α :=
  zoom Link.session (fun session s => { s with session }) (.failed context) p

def onTls (context : String) (p : Program (TlsHandler C) ProtocolError α) : Work C α :=
  zoom Link.tls (fun tls s => { s with tls }) (.failed context) p

def onIntake (p : Program Intake MessageError α) : Work C α :=
  zoom Link.intake (fun intake s => { s with intake }) .message p

def sendAll (packets : List Bytes) : Work C Unit := modify fun s => { s with sent := s.sent ++ packets }

variable (S : Setup C) (clock : Clock)

def sendControl (tlsData : Bytes) : Work C Unit := do
  let packets ← onSession "Failed to create control packets" (createControlPackets S.primitives clock tlsData)
  sendAll packets

def sendAck : Work C Unit := do
  let s ← get
  if s.session.reliable.shouldSendAck clock.now then
    let ack ← onSession "" (createAckPacket S.primitives clock)
    sendAll ack.toList
  else return ()

def sendRetransmits : Work C Unit := do
  let packets ← onSession "" (getRetransmits S.primitives clock)
  sendAll packets

/-- During the handshake each piece of TLS output goes out on its own. Every
turn takes something off the backlog, which therefore bounds the turns. -/
def flushEach : Nat → Work C Unit
  | 0 => return ()
  | fuel + 1 => do
    let s ← get
    if S.engine.wantsWrite s.tls.conn then
      match ← onTls "TLS outgoing failed" (TlsHandler.getOutgoing S.engine) with
      | some tlsOut =>
        sendControl S clock tlsOut
        flushEach fuel
      | none => return ()
    else return ()

def collectOutgoing : Nat → Work C Bytes
  | 0 => return []
  | fuel + 1 => do
    let s ← get
    if S.engine.wantsWrite s.tls.conn then
      match ← onTls "TLS outgoing failed" (TlsHandler.getOutgoing S.engine) with
      | some tlsOut =>
        let rest ← collectOutgoing fuel
        return tlsOut ++ rest
      | none => return []
    else return []

/-- Later on all of it goes out together. -/
def flushTlsToSocket : Work C Unit := do
  let s ← get
  let tlsData ← collectOutgoing S (S.engine.backlog s.tls.conn + 1)
  if tlsData.isEmpty then return () else sendControl S clock tlsData

/-- The first message of the key exchange is written before the last ones of the
handshake are sent. -/
def beginKeyExchange : Work C Unit := do
  modify fun s => { s with session := s.session.setState clock.now .keyExchange }
  let _ ← onTls "Failed to write key_method_v2"
    (TlsHandler.writePlaintext S.engine ((clientKeyMethod S.config S.secrets).encode false))
  flushTlsToSocket S clock

/-- What the handshake loop does with a packet. It says whether the handshake is
complete. -/
def handshakeAnswer : ProcessedPacket → Work C Bool
  | .tlsData records => do
    onTls "TLS processing failed" (TlsHandler.processTlsRecords S.engine records)
    sendAck S clock
    let s ← get
    if s.tls.handshakeComplete then
      beginKeyExchange S clock
      return true
    else
      flushEach S clock (S.engine.backlog s.tls.conn + 1)
      return false
  | _ => return false

def handshakeTurn (data : Bytes) : Work C Bool := do
  let result ← onSession "Failed to process packet during handshake"
    (ProtocolSession.processPacket S.primitives clock data)
  let complete ← handshakeAnswer S clock result
  sendRetransmits S clock
  return complete

def exchangeAnswer : ProcessedPacket → Work C Unit
  | .tlsData records => do
    onTls "TLS processing failed" (TlsHandler.processTlsRecords S.engine records)
    sendAck S clock
    flushTlsToSocket S clock
  | .none => sendAck S clock
  | _ => return ()

def exchangeTurn (data : Bytes) : Work C Unit := do
  let result ← onSession "Failed to process packet during key exchange"
    (ProtocolSession.processPacket S.primitives clock data)
  exchangeAnswer S clock result
  sendRetransmits S clock

inductive Reading where
  | dry
  | more
  | replied
  deriving DecidableEq

def readMessages : Work C Reading := do
  let plaintext ← onTls "TLS read failed" (TlsHandler.readPlaintext S.engine 8192)
  if plaintext.isEmpty then return .dry
  else
    onIntake do
      modify fun s => { s with totalPlaintext := s.totalPlaintext ++ plaintext }
      tryParseServerMessages S.toLowercase
    let s ← get
    return if s.intake.pushReply.isSome then .replied else .more

abbrev Ending := Outcome HandshakeError (KeyMethodV2 × PushReply)

/-- The client where it waits for a datagram, with the turns that are left to
the loop it is in. -/
inductive Phase (C : Type) where
  | resetting (session : ProtocolSession)
  | handshaking (turns : Nat) (link : Link C)
  | exchanging (turns : Nat) (link : Link C)
  | finished (ending : Ending)

def ending (intake : Intake) : Ending :=
  match intake.serverKm, intake.pushReply with
  | some km, some reply => .ok (km, reply)
  | none, _ => .error (.error .missingKeyMethod)
  | _, none => .error .panic

def exchange : Nat → Link C → Phase C
  | 0, _ => .finished (.error (.error .keyExchangeTimeout))
  | turns + 1, link =>
    match readMessages S link with
    | (.ok .dry, link) => .exchanging turns link
    | (.ok .more, link) => exchange turns link
    | (.ok .replied, link) => .finished (ending link.intake)
    | (.error e, _) => .finished (.error e)

def handshake : Nat → Link C → Phase C
  | 0, _ => .finished (.error (.error .tooManyIterations))
  | turns + 1, link => .handshaking turns link

def sendHello : Work C Unit := do
  match ← onTls "Failed to get ClientHello" (TlsHandler.getOutgoing S.engine) with
  | some clientHello => sendControl S clock clientHello
  | none => fail .noClientHello

def startTls (session : ProtocolSession) : Outcome HandshakeError (Link C) := do
  let (ack, session) ← Outcome.mapFault (.failed "") (evaluate (createAckPacket S.primitives clock) session)
  let tls ← Outcome.mapFault (.failed "Failed to create TLS handler") (TlsHandler.new S.engine)
  let (_, link) ← evaluate (sendHello S clock) ⟨session, tls, {}, ack.toList⟩
  return link

def maxHandshakeAttempts : Nat := 50

def maxKmAttempts : Nat := 100

def beginHandshake (session : ProtocolSession) : Phase C :=
  match startTls S clock session with
  | .ok link => handshake maxHandshakeAttempts link
  | .error e => .finished (.error e)

/-- The client reads a datagram and goes on to the next one it waits for. -/
def feed (data : Bytes) : Phase C → Phase C
  | .resetting session =>
    match ProtocolSession.processPacket S.primitives clock data session with
    | (.ok result, session) =>
      if result = .hardResetAck then beginHandshake S clock session else .resetting session
    | (.error e, _) => .finished (.error (e.map (.failed "Failed to process packet")))
  | .handshaking turns link =>
    match handshakeTurn S clock data link with
    | (.ok complete, link) => if complete then exchange S maxKmAttempts link else handshake turns link
    | (.error e, _) => .finished (.error e)
  | .exchanging turns link =>
    match exchangeTurn S clock data link with
    | (.ok _, link) => exchange S turns link
    | (.error e, _) => .finished (.error e)
  | .finished ending => .finished ending

def openLink : Outcome HandshakeError (Bytes × ProtocolSession) := do
  let session ← Outcome.mapFault .setup (openSession S.toUppercase S.config S.sessionId clock.now)
  Outcome.mapFault (.failed "Failed to create hard reset")
    (evaluate (createHardResetClient S.primitives clock) session)

def start : Phase C :=
  match openLink S clock with
  | .ok (_, session) => .resetting session
  | .error e => .finished (.error e)

def feedStep (phase : Phase C) (datagram : Clock × Bytes) : Unit × Phase C :=
  ((), feed S datagram.1 datagram.2 phase)

def Phase.ending : Phase C → Option Ending
  | .finished ending => some ending
  | _ => none

/-- How a connection ends that reads these datagrams, if it does. -/
def connect (datagrams : List (Clock × Bytes)) : Option Ending :=
  (exec (feedStep S) (start S clock) datagrams).ending

end CoreVpn.Client.Handshake
