import CoreVpn.Crypto.Keys
import CoreVpn.Protocol.DataChannels
import CoreVpn.Protocol.Reliable
import CoreVpn.Protocol.TlsRecords

namespace CoreVpn.Protocol.Sessions

open Lib.Computation Lib.Wire Crypto.Replay Crypto.Ciphers Crypto.Keys
open Errors Opcodes Packets DataChannels Reliable TlsRecords

/-- What a session takes from outside: the AEAD, HMAC-SHA256 and the
floating-point arithmetic of the retransmission timers. -/
structure Primitives where
  aead : Aead
  hmac : Hmac
  time : FloatTime

/-- A stand-in for concrete runs on one message, with MACs of zeros. -/
def Primitives.single (message : Bytes) : Primitives :=
  ⟨.single message, fun _ _ => zeros 32, ⟨fun r _ => r, fun v _ => v, fun r _ => r⟩⟩

structure Clock where
  now : Instant
  unixTime : UInt32

inductive ProtocolState where
  | initial
  | tlsHandshake
  | keyExchange
  | authenticating
  | established
  | rekeying
  | terminated
  deriving DecidableEq, Repr

inductive ProcessedPacket where
  | none
  | hardReset (sessionId : SessionId)
  | hardResetAck
  | tlsData (records : List Bytes)
  | data (payload : Bytes)
  | softReset
  deriving DecidableEq

structure ProtocolSession where
  localSessionId : SessionId
  remoteSessionId : Option SessionId
  state : ProtocolState
  currentKeyId : KeyId
  reliable : ReliableTransport
  tlsReassembler : TlsRecordReassembler
  dataChannels : Fin 8 → Option DataChannel
  peerId : Option UInt32
  useTlsAuth : Bool
  tlsAuthKey : Option HmacAuth
  replayWindow : TlsAuthWindow
  tlsAuthPacketId : UInt32
  createdAt : Instant
  lastActivity : Instant
  cipherSuite : CipherSuite

namespace ProtocolSession

/-- The session id is drawn at random, the server's and the client's sessions
start out alike. -/
def newServer (cipherSuite : CipherSuite) (sessionId : SessionId) (now : Instant) :
    ProtocolSession where
  localSessionId := sessionId
  remoteSessionId := none
  state := .initial
  currentKeyId := ⟨0⟩
  reliable := ReliableTransport.new {}
  tlsReassembler := TlsRecordReassembler.new 65536
  dataChannels := fun _ => none
  peerId := none
  useTlsAuth := false
  tlsAuthKey := none
  replayWindow := ReplayWindow.new
  tlsAuthPacketId := 1
  createdAt := now
  lastActivity := now
  cipherSuite := cipherSuite

def newClient (cipherSuite : CipherSuite) (sessionId : SessionId) (now : Instant) :
    ProtocolSession := { newServer cipherSuite sessionId now with state := .initial }

def setState (now : Instant) (state : ProtocolState) (s : ProtocolSession) : ProtocolSession :=
  { s with state, lastActivity := now }

def setRemoteSessionId (id : SessionId) (s : ProtocolSession) : ProtocolSession :=
  { s with remoteSessionId := some id }

def setTlsAuth (key : HmacAuth) (s : ProtocolSession) : ProtocolSession :=
  { s with useTlsAuth := true, tlsAuthKey := some key }

def setCipherSuite (cipherSuite : CipherSuite) (s : ProtocolSession) : ProtocolSession :=
  { s with cipherSuite }

def rotateKey (s : ProtocolSession) : ProtocolSession :=
  { s with currentKeyId := s.currentKeyId.next, replayWindow := s.replayWindow.reset }

def onReliable {α : Type} (p : Program ReliableTransport ProtocolError α) :
    Program ProtocolSession ProtocolError α :=
  zoom ProtocolSession.reliable (fun t s => { s with reliable := t }) id p

/-- The HMAC of tls-auth covers the replay fields, then the packet without them. -/
def verifyTlsAuth (P : Primitives) (self : ProtocolSession) (data : Bytes) :
    Outcome ProtocolError Unit := do
  match self.useTlsAuth, self.tlsAuthKey with
  | true, some key =>
    if data.isEmpty then return ()
    else
      let opcode ← OpCode.fromByte (← index data 0)
      if opcode.isControl then
        if data.length < 49 then
          .error (.error (.packetTooShort 49 data.length))
        else
          let hmac ← readFixed 32 data 9
          let replay ← slice data 41 49
          let head ← slice data 0 9
          let rest ← slice data 49 data.length
          Outcome.mapFault ProtocolError.cryptoError (key.verify P.hmac (replay ++ head ++ rest) hmac)
      else return ()
  | _, _ => return ()

/-- The ids and payloads of control packets go through the reliable transport,
the delivered payloads through the TLS record reassembler. -/
def receiveTls (packetId : UInt32) (payload : Bytes) :
    Program ProtocolSession ProtocolError ProcessedPacket := do
  match ← onReliable (ReliableTransport.receive packetId payload) with
  | some data =>
    zoom ProtocolSession.tlsReassembler (fun r s => { s with tlsReassembler := r }) id
      (TlsRecordReassembler.add data)
    let self ← get
    let (records, rest) := self.tlsReassembler.extractRecords
    modify fun s => { s with tlsReassembler := rest }
    return if records.isEmpty then .none else .tlsData records
  | none => return .none

def acknowledge (messagePacketId : Option UInt32) : Program ProtocolSession ProtocolError Unit := do
  match messagePacketId with
  | some packetId =>
    let _ ← onReliable (ReliableTransport.receive packetId [])
    return ()
  | none => return ()

/-- The replay check of tls-auth, which comes after the HMAC check. -/
def checkReplay (packetId : Option UInt32) : Program ProtocolSession ProtocolError Unit := do
  let self ← get
  match self.useTlsAuth, packetId with
  | true, some packetId =>
    let fresh ← zoom ProtocolSession.replayWindow (fun w s => { s with replayWindow := w }) id
      (TlsAuthWindow.checkAndUpdate packetId.toBitVec)
    if fresh then return () else fail .replayDetected
  | _, _ => return ()

/-- A client's session id may not be all zeros. -/
def acceptClientId (sessionId : Option SessionId) : Program ProtocolSession ProtocolError Unit := do
  match sessionId with
  | some remoteSid =>
    if remoteSid = zeros 8 then fail .invalidSessionId
    else modify fun s => { s with remoteSessionId := some remoteSid }
  | none => return ()

def acceptServerId (sessionId : Option SessionId) (s : ProtocolSession) : ProtocolSession :=
  match sessionId with
  | some remoteSid => { s with remoteSessionId := some remoteSid }
  | none => s

def processOpcode (ctrl : ControlPacketData) :
    Program ProtocolSession ProtocolError ProcessedPacket := do
  match ctrl.header.opcode with
  | .hardResetClientV2 | .hardResetClientV3 =>
    acceptClientId ctrl.header.sessionId
    acknowledge ctrl.messagePacketId
    modify fun s => { s with state := .tlsHandshake }
    let self ← get
    return .hardReset self.localSessionId
  | .hardResetServerV2 =>
    modify (acceptServerId ctrl.header.sessionId)
    acknowledge ctrl.messagePacketId
    modify fun s => { s with state := .tlsHandshake }
    return .hardResetAck
  | .controlV1 =>
    match ctrl.messagePacketId with
    | some packetId => receiveTls packetId ctrl.payload
    | none => return .none
  | .ackV1 => return .none
  | .softResetV1 =>
    modify fun s => { s with state := .rekeying }
    return .softReset
  | opcode => fail (.unknownOpcode opcode.code)

def processControlPacket (P : Primitives) (clock : Clock) (ctrl : ControlPacketData) :
    Program ProtocolSession ProtocolError ProcessedPacket := do
  checkReplay ctrl.header.packetId
  modify fun s => if ctrl.acks.isEmpty then s
    else { s with reliable := s.reliable.processAcks P.time clock.now ctrl.acks }
  processOpcode ctrl

def onChannel {α : Type} (keyId : KeyId) (p : Program DataChannel ProtocolError α) :
    Program ProtocolSession ProtocolError α := fun s =>
  if h : keyId.val.toNat < 8 then
    match s.dataChannels ⟨keyId.val.toNat, h⟩ with
    | some channel =>
      let r := p channel
      (r.1, { s with dataChannels := Function.update s.dataChannels ⟨keyId.val.toNat, h⟩ (some r.2) })
    | none => (.error (.error (.keyNotAvailable keyId.val)), s)
  else (.error .panic, s)

def processDataPacket (P : Primitives) (packet : DataPacketData) :
    Program ProtocolSession ProtocolError ProcessedPacket := do
  let decrypted ← onChannel packet.header.keyId
    (DataChannel.decrypt P.aead ⟨packet.header.keyId, packet.peerId, packet.payload⟩)
  return .data decrypted

def processPacket (P : Primitives) (clock : Clock) (data : Bytes) :
    Program ProtocolSession ProtocolError ProcessedPacket := do
  modify fun s => { s with lastActivity := clock.now }
  let self ← get
  lift (self.verifyTlsAuth P data)
  match ← lift (Packet.parse data self.useTlsAuth) with
  | .control ctrl => processControlPacket P clock ctrl
  | .data packet => processDataPacket P packet

def installKeys (material : KeyMaterial) (isServer : Bool) : Program ProtocolSession ProtocolError Unit :=
  fun s =>
    let serverKey := material.serverDataKey s.cipherSuite
    let clientKey := material.clientDataKey s.cipherSuite
    let keys := if isServer then (serverKey, clientKey) else (clientKey, serverKey)
    let channel := DataChannel.new s.currentKeyId keys.1 keys.2 s.peerId.isSome s.peerId
    if h : s.currentKeyId.val.toNat < 8 then
      (.ok (), { s with
        dataChannels := Function.update s.dataChannels ⟨s.currentKeyId.val.toNat, h⟩ (some channel) })
    else (.error .panic, s)

def encryptData (P : Primitives) (data : Bytes) : Program ProtocolSession ProtocolError Bytes := do
  let self ← get
  let packet ← onChannel self.currentKeyId (DataChannel.encrypt P.aead data)
  return packet.serialize

end ProtocolSession

end CoreVpn.Protocol.Sessions
