import CoreVpn.Crypto.Ciphers
import CoreVpn.Protocol.Packets

namespace CoreVpn.Protocol.DataChannels

open Lib.Computation Lib.Wire Crypto.Ciphers Errors Opcodes

structure DataPacket where
  keyId : KeyId
  peerId : Option UInt32
  payload : Bytes
  deriving DecidableEq

def v2Header (keyId : KeyId) (peerId : UInt32) : Bytes :=
  OpCode.dataV2.toByte keyId :: toBe24 peerId

namespace DataPacket

def serialize (packet : DataPacket) : Bytes :=
  match packet.peerId with
  | some peerId => v2Header packet.keyId peerId ++ packet.payload
  | none => OpCode.dataV1.toByte packet.keyId :: packet.payload

end DataPacket

structure DataChannel where
  keyId : KeyId
  peerId : Option UInt32
  encryptCipher : PacketCipher
  decryptCipher : PacketCipher
  useV2 : Bool
  encryptAdPrefix : Bytes
  deriving DecidableEq

namespace DataChannel

/-- A V2 header is authenticated as it stands. A V1 opcode is put in front
after encryption, so that nothing of it is authenticated. -/
def new (keyId : KeyId) (encryptKey decryptKey : DataChannelKey) (useV2 : Bool)
    (peerId : Option UInt32) : DataChannel where
  keyId := keyId
  peerId := peerId
  encryptCipher := PacketCipher.new encryptKey
  decryptCipher := PacketCipher.new decryptKey
  useV2 := useV2
  encryptAdPrefix := if useV2 then v2Header keyId (peerId.getD 0) else []

def decryptAdPrefix (packet : DataPacket) : Bytes :=
  match packet.peerId with
  | some peerId => v2Header packet.keyId peerId
  | none => []

def encrypt (A : Aead) (ipPacket : Bytes) : Program DataChannel ProtocolError DataPacket := do
  let self ← get
  let encrypted ← zoom DataChannel.encryptCipher (fun c s => { s with encryptCipher := c })
    ProtocolError.cryptoError (PacketCipher.encrypt A ipPacket self.encryptAdPrefix)
  return ⟨self.keyId, if self.useV2 then self.peerId else none, encrypted⟩

def decrypt (A : Aead) (packet : DataPacket) : Program DataChannel ProtocolError Bytes := do
  let self ← get
  if packet.keyId ≠ self.keyId then
    fail (.keyNotAvailable packet.keyId.val)
  else
    zoom DataChannel.decryptCipher (fun c s => { s with decryptCipher := c })
      ProtocolError.cryptoError (PacketCipher.decrypt A packet.payload (decryptAdPrefix packet))

end DataChannel

end CoreVpn.Protocol.DataChannels
