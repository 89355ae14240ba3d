import CoreVpn.Lib.Wire
import CoreVpn.Protocol.Opcodes

namespace CoreVpn.Protocol.Packets

open Lib.Computation Lib.Wire Errors Opcodes

abbrev SessionId := ByteVec 8

structure PacketHeader where
  opcode : OpCode
  keyId : KeyId
  sessionId : Option SessionId
  hmac : Option (ByteVec 32)
  packetId : Option UInt32
  timestamp : Option UInt32
  deriving DecidableEq

structure ControlPacketData where
  header : PacketHeader
  remoteSessionId : Option SessionId
  acks : List UInt32
  messagePacketId : Option UInt32
  payload : Bytes
  deriving DecidableEq

structure DataPacketData where
  header : PacketHeader
  peerId : Option UInt32
  payload : Bytes
  deriving DecidableEq

inductive Packet where
  | control (ctrl : ControlPacketData)
  | data (data : DataPacketData)
  deriving DecidableEq

def ensure (data : Bytes) (expected : Nat) : Outcome ProtocolError Unit :=
  if data.length < expected then .error (.error (.packetTooShort expected data.length)) else .ok ()

def field (n : Nat) (data : Bytes) (offset : Nat) : Outcome ProtocolError (ByteVec n) := do
  ensure data (offset + n)
  readFixed n data offset

namespace PacketHeader

/-- The session id of a control packet, then the tls-auth fields if they are in use. -/
def parseControlFields (data : Bytes) (opcode : OpCode) (keyId : KeyId) (hasTlsAuth : Bool) :
    Outcome ProtocolError (PacketHeader × Nat) := do
  let sessionId ← field 8 data 1
  if hasTlsAuth then
    let hmac ← field 32 data 9
    let packetId ← field 4 data 41
    let timestamp ← field 4 data 45
    return (⟨opcode, keyId, some sessionId, some hmac, some (fromBe32 packetId),
      some (fromBe32 timestamp)⟩, 49)
  else
    return (⟨opcode, keyId, some sessionId, none, none, none⟩, 9)

def parse (data : Bytes) (hasTlsAuth : Bool) : Outcome ProtocolError (PacketHeader × Nat) := do
  if data.isEmpty then
    .error (.error (.packetTooShort 1 0))
  else
    let first ← index data 0
    let opcode ← OpCode.fromByte first
    let keyId := KeyId.fromByte first
    if opcode.isData then
      return (⟨opcode, keyId, none, none, none, none⟩, 1)
    else
      parseControlFields data opcode keyId hasTlsAuth

def serializeFields (header : PacketHeader) : Bytes :=
  header.sessionId.elim [] (·.toList) ++ (header.hmac.elim [] (·.toList) ++
    (header.packetId.elim [] (fun id => (toBe32 id).toList) ++
      header.timestamp.elim [] (fun t => (toBe32 t).toList)))

def serialize (header : PacketHeader) : Bytes :=
  header.opcode.toByte header.keyId :: header.serializeFields

end PacketHeader

namespace Packet

def parsePeerId (data : Bytes) (opcode : OpCode) (offset : Nat) :
    Outcome ProtocolError (Option UInt32 × Nat) := do
  if opcode = .dataV2 then
    ensure data (offset + 3)
    let a ← index data offset
    let b ← index data (offset + 1)
    let c ← index data (offset + 2)
    return (some (fromBe24 a b c), offset + 3)
  else
    return (none, offset)

def parseData (data : Bytes) (header : PacketHeader) (offset : Nat) :
    Outcome ProtocolError Packet := do
  let (peerId, offset) ← parsePeerId data header.opcode offset
  if offset > data.length then
    .error (.error (.packetTooShort offset data.length))
  else
    let payload ← slice data offset data.length
    return .data ⟨header, peerId, payload⟩

def maxAckCount : Nat := 16

def parseAcks (data : Bytes) : Nat → Nat → Outcome ProtocolError (List UInt32 × Nat)
  | 0, offset => .ok ([], offset)
  | count + 1, offset => do
    let ack ← field 4 data offset
    let (acks, offset) ← parseAcks data count (offset + 4)
    return (fromBe32 ack :: acks, offset)

def parseAckArray (data : Bytes) (offset : Nat) :
    Outcome ProtocolError (List UInt32 × Option SessionId × Nat) := do
  ensure data (offset + 1)
  let ackCount := (← index data offset).toNat
  if ackCount > maxAckCount then
    .error (.error (.invalidPacket s!"ACK count {ackCount} exceeds maximum {maxAckCount}"))
  else if ackCount > 0 then
    let (acks, offset) ← parseAcks data ackCount (offset + 1)
    let remoteSessionId ← field 8 data offset
    return (acks, some remoteSessionId, offset + 8)
  else
    return ([], none, offset + 1)

/-- The message id is read whenever four bytes are left, unless the packet only acknowledges. -/
def parseMessageId (data : Bytes) (opcode : OpCode) (offset : Nat) :
    Outcome ProtocolError (Option UInt32 × Nat) := do
  if opcode ≠ .ackV1 ∧ offset + 4 ≤ data.length then
    let id ← readFixed 4 data offset
    return (some (fromBe32 id), offset + 4)
  else
    return (none, offset)

def parsePayload (data : Bytes) (offset : Nat) : Outcome ProtocolError Bytes :=
  if offset < data.length then slice data offset data.length else .ok []

def parseControl (data : Bytes) (header : PacketHeader) (offset : Nat) :
    Outcome ProtocolError Packet := do
  let (acks, remoteSessionId, offset) ← parseAckArray data offset
  let (messagePacketId, offset) ← parseMessageId data header.opcode offset
  let payload ← parsePayload data offset
  return .control ⟨header, remoteSessionId, acks, messagePacketId, payload⟩

def parse (data : Bytes) (hasTlsAuth : Bool) : Outcome ProtocolError Packet := do
  let (header, offset) ← PacketHeader.parse data hasTlsAuth
  if header.opcode.isData then parseData data header offset else parseControl data header offset

def serializeAcks (acks : List UInt32) (remoteSessionId : Option SessionId) : Bytes :=
  UInt8.ofNat acks.length :: (acks.flatMap (fun ack => (toBe32 ack).toList) ++
    if acks.isEmpty then [] else remoteSessionId.elim [] (·.toList))

def serialize : Packet → Bytes
  | .control ctrl =>
    ctrl.header.serialize ++ serializeAcks ctrl.acks ctrl.remoteSessionId ++
      ctrl.messagePacketId.elim [] (fun id => (toBe32 id).toList) ++ ctrl.payload
  | .data d => d.header.serialize ++ d.peerId.elim [] toBe24 ++ d.payload

def opcode : Packet → OpCode
  | .control ctrl => ctrl.header.opcode
  | .data d => d.header.opcode

def keyId : Packet → KeyId
  | .control ctrl => ctrl.header.keyId
  | .data d => d.header.keyId

end Packet

end CoreVpn.Protocol.Packets
