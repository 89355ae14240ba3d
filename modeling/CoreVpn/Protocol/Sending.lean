import CoreVpn.Protocol.Sessions

namespace CoreVpn.Protocol.Sending

open Lib.Computation Lib.Wire Crypto.Keys Errors Opcodes Packets Reliable Sessions ProtocolSession

def controlPacket (s : ProtocolSession) (opcode : OpCode) (keyId : KeyId)
    (remoteSessionId : Option SessionId) (acks : List UInt32) (messagePacketId : Option UInt32)
    (payload : Bytes) : ControlPacketData where
  header := ⟨opcode, keyId, some s.localSessionId, none, none, none⟩
  remoteSessionId := remoteSessionId
  acks := acks
  messagePacketId := messagePacketId
  payload := payload

/-- Insert the HMAC and the replay fields behind the session id. The counter
of the replay fields wraps, as in a release build. -/
def maybeWrapTlsAuth (P : Primitives) (clock : Clock) (data : Bytes) (s : ProtocolSession) :
    Bytes × ProtocolSession :=
  match s.useTlsAuth, s.tlsAuthKey with
  | true, some key =>
    if data.length < 9 then (data, s)
    else
      let replay := (toBe32 s.tlsAuthPacketId).toList ++ (toBe32 clock.unixTime).toList
      let hmac := key.authenticate P.hmac (replay ++ data)
      (data.take 9 ++ hmac.toList ++ replay ++ data.drop 9,
        { s with tlsAuthPacketId := s.tlsAuthPacketId + 1 })
  | _, _ => (data, s)

def emit (P : Primitives) (clock : Clock) (ctrl : ControlPacketData) :
    Program ProtocolSession ProtocolError Bytes := fun s =>
  let wrapped := maybeWrapTlsAuth P clock (Packet.serialize (.control ctrl)) s
  (.ok wrapped.1, wrapped.2)

def takeAcks : Program ProtocolSession ProtocolError (List UInt32) := fun s =>
  let r := s.reliable.getAcks
  (.ok r.1, { s with reliable := r.2 })

def createHardResetClient (P : Primitives) (clock : Clock) :
    Program ProtocolSession ProtocolError Bytes := do
  let (packetId, _) ← onReliable (ReliableTransport.send clock.now [])
  let self ← get
  emit P clock (controlPacket self .hardResetClientV2 ⟨0⟩ none [] (some packetId) [])

/-- A packet that carries a message id and the pending acknowledgments. -/
def createReliable (P : Primitives) (clock : Clock) (opcode : OpCode) (keyId : ProtocolSession → KeyId)
    (payload : Bytes) : Program ProtocolSession ProtocolError Bytes := do
  let (packetId, _) ← onReliable (ReliableTransport.send clock.now payload)
  let self ← get
  let acks ← takeAcks
  emit P clock (controlPacket self opcode (keyId self) self.remoteSessionId acks (some packetId) payload)

def createHardResetResponse (P : Primitives) (clock : Clock) :
    Program ProtocolSession ProtocolError Bytes :=
  createReliable P clock .hardResetServerV2 (fun _ => ⟨0⟩) []

def maxControlPayload : Nat := 1100

def createSingleControlPacket (P : Primitives) (clock : Clock) (tlsData : Bytes) :
    Program ProtocolSession ProtocolError Bytes :=
  createReliable P clock .controlV1 ProtocolSession.currentKeyId tlsData

def createControlPacket (P : Primitives) (clock : Clock) (tlsData : Bytes) :
    Program ProtocolSession ProtocolError Bytes := createSingleControlPacket P clock tlsData

def chunks : Nat → Bytes → List Bytes
  | 0, _ => []
  | fuel + 1, data =>
    if data.isEmpty then [] else data.take maxControlPayload :: chunks fuel (data.drop maxControlPayload)

def createEach (P : Primitives) (clock : Clock) :
    List Bytes → Program ProtocolSession ProtocolError (List Bytes)
  | [] => return []
  | chunk :: rest => do
    let packet ← createSingleControlPacket P clock chunk
    let packets ← createEach P clock rest
    return packet :: packets

def createControlPackets (P : Primitives) (clock : Clock) (tlsData : Bytes) :
    Program ProtocolSession ProtocolError (List Bytes) :=
  if tlsData.length ≤ maxControlPayload then createEach P clock [tlsData]
  else createEach P clock (chunks tlsData.length tlsData)

def createAckPacket (P : Primitives) (clock : Clock) :
    Program ProtocolSession ProtocolError (Option Bytes) := do
  let acks ← takeAcks
  if acks.isEmpty then return none
  else
    let self ← get
    modify fun s => { s with reliable := s.reliable.ackSent clock.now }
    let packet ← emit P clock
      (controlPacket self .ackV1 self.currentKeyId self.remoteSessionId acks none [])
    return some packet

def emitEach (P : Primitives) (clock : Clock) :
    List ControlPacketData → Program ProtocolSession ProtocolError (List Bytes)
  | [] => return []
  | ctrl :: rest => do
    let packet ← emit P clock ctrl
    let packets ← emitEach P clock rest
    return packet :: packets

def getRetransmits (P : Primitives) (clock : Clock) :
    Program ProtocolSession ProtocolError (List Bytes) := do
  let self ← get
  let r := self.reliable.getRetransmits P.time clock.now
  modify fun s => { s with reliable := r.2 }
  emitEach P clock (r.1.map fun p =>
    controlPacket self .controlV1 self.currentKeyId self.remoteSessionId [] (some p.1) p.2)

end CoreVpn.Protocol.Sending
