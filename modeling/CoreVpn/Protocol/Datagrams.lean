import CoreVpn.Crypto.Encryption
import CoreVpn.Protocol.PacketCodec
import CoreVpn.Protocol.Sessions

namespace CoreVpn.Protocol.Datagrams

open Lib.Computation Lib.Wire Crypto.Errors Crypto.Replay Crypto.Ciphers Crypto.Encryption
open Errors Opcodes Packets DataChannels Sessions ProtocolSession

def authenticatedHeader (keyId : KeyId) (peerId : Option UInt32) : Bytes :=
  DataChannel.decryptAdPrefix ⟨keyId, peerId, []⟩

def datagram (keyId : KeyId) (peerId : Option UInt32) (id : UInt32) (sealed : Bytes) : Bytes :=
  DataPacket.serialize ⟨keyId, peerId, wirePacket id sealed⟩

/-- The channel of a session that encrypts under a key, after `n` packets. -/
structure Sender (key : DataChannelKey) (keyId : KeyId) (peerId : Option UInt32) (n : Nat)
    (c : DataChannel) : Prop where
  keyId_eq : c.keyId = keyId
  peerId_eq : (if c.useV2 then c.peerId else none) = peerId
  prefix_eq : c.encryptAdPrefix = authenticatedHeader keyId peerId
  under : Under key c.encryptCipher
  counter_eq : c.encryptCipher.txCounter.toNat = n

structure Receiver (key : DataChannelKey) (keyId : KeyId) (I : Finset Nat) (c : DataChannel) : Prop where
  keyId_eq : c.keyId = keyId
  under : Under key c.decryptCipher
  tracks : Tracks c.decryptCipher.rxWindow I

variable {A : Aead} {key : DataChannelKey} {keyId : KeyId} {peerId : Option UInt32} {n : Nat}
  {I : Finset Nat} {c : DataChannel} {message sealed : Bytes}

theorem succ_eq_of_toNat {a id : UInt32} (ha : a.toNat = n) (hid : id.toNat = n + 1) : a + 1 = id := by
  have hlt := id.toNat_lt
  apply UInt32.toNat_inj.mp
  rw [UInt32.toNat_add, ha, hid]
  exact Nat.mod_eq_of_lt (hid ▸ hlt)

theorem channel_encrypt_eq (hc : Sender key keyId peerId n c) {id : UInt32} (hid : id.toNat = n + 1)
    (hseal : Seals A key (nonceOf key id) (aadOf (authenticatedHeader keyId peerId) id) message) :
    ∃ sealed d, A.encrypt key.cipherSuite key.key (nonceOf key id) message
        (aadOf (authenticatedHeader keyId peerId) id) = some sealed ∧
      Sender key keyId peerId (n + 1) d ∧
      DataChannel.encrypt A message c = (.ok ⟨keyId, peerId, wirePacket id sealed⟩, d) := by
  obtain ⟨sealed, henc, hlen, -⟩ := hseal
  have hnext := succ_eq_of_toNat hc.counter_eq hid
  have hlt : c.encryptCipher.txCounter.toNat + 1 < 2 ^ 32 := by
    rw [hc.counter_eq, ← hid]
    exact id.toNat_lt
  have he := encrypt_eq (A := A) hc.under hlt (by rw [hnext]; exact henc)
    (by rw [hlen]; exact Nat.le_add_left _ _)
  rw [hnext] at he
  refine ⟨sealed, { c with encryptCipher := { c.encryptCipher with txCounter := id } }, henc,
    ⟨hc.keyId_eq, hc.peerId_eq, hc.prefix_eq, hc.under, hid⟩, ?_⟩
  simp [DataChannel.encrypt, bind_apply, zoom, hc.prefix_eq, he, Outcome.mapFault, hc.keyId_eq,
    hc.peerId_eq]

theorem channel_decrypt_eq (hc : Receiver key keyId I c) {id : UInt32}
    (hseal : Seals A key (nonceOf key id) (aadOf (authenticatedHeader keyId peerId) id) message)
    (henc : A.encrypt key.cipherSuite key.key (nonceOf key id) message
      (aadOf (authenticatedHeader keyId peerId) id) = some sealed) :
    ∃ d, Receiver key keyId (Lib.Replay.filter 128 I id.toNat).2 d ∧
      DataChannel.decrypt A ⟨keyId, peerId, wirePacket id sealed⟩ c =
        (if Lib.Replay.Admits 128 I id.toNat then .ok message
          else .error (.error (.cryptoError .replayDetected)), d) := by
  obtain ⟨t, hunder, htracks, hd⟩ := decrypt_wirePacket hc.under hc.tracks hseal henc
  refine ⟨{ c with decryptCipher := t }, ⟨hc.keyId_eq, hunder, htracks⟩, ?_⟩
  have hd' : PacketCipher.decrypt A (wirePacket id sealed)
      (DataChannel.decryptAdPrefix ⟨keyId, peerId, wirePacket id sealed⟩) c.decryptCipher = _ := hd
  by_cases ha : Lib.Replay.Admits 128 I id.toNat
  · simp [DataChannel.decrypt, bind_apply, zoom, hc.keyId_eq, hd', ha, Outcome.mapFault]
  · simp [DataChannel.decrypt, bind_apply, zoom, hc.keyId_eq, hd', ha, Outcome.mapFault, Fault.map]

theorem verifyTlsAuth_of_isData (P : Primitives) (s : ProtocolSession) {opcode : OpCode}
    (hop : opcode.isData = true) (hkey : keyId.val < 8) (rest : Bytes) :
    verifyTlsAuth P s (opcode.toByte keyId :: rest) = .ok () := by
  have hfirst : (index (opcode.toByte keyId :: rest) 0 : Outcome ProtocolError UInt8) =
    .ok (opcode.toByte keyId) := rfl
  have hcontrol : opcode.isControl = false := by rw [isControl_eq_not_isData, hop]; rfl
  unfold verifyTlsAuth
  split
  · rw [List.isEmpty_cons, if_neg Bool.false_ne_true, hfirst, Outcome.ok_bind,
      (fromByte_toByte opcode hkey).1, Outcome.ok_bind, hcontrol]
    rfl
  · rfl

def packetData (packet : DataPacket) : DataPacketData where
  header := ⟨if packet.peerId.isSome then .dataV2 else .dataV1, packet.keyId, none, none, none, none⟩
  peerId := packet.peerId
  payload := packet.payload

theorem serialize_packetData (packet : DataPacket) :
    Packet.serialize (.data (packetData packet)) = packet.serialize := by
  obtain ⟨keyId, peerId, payload⟩ := packet
  cases peerId with
  | none => rfl
  | some id => rfl

theorem wellFormed_packetData {packet : DataPacket} (hkey : packet.keyId.val < 8)
    (hpeer : ∀ id ∈ packet.peerId, id.toNat < 2 ^ 24) (hasTlsAuth : Bool) :
    PacketCodec.WellFormed hasTlsAuth (.data (packetData packet)) := by
  obtain ⟨keyId, peerId, payload⟩ := packet
  cases peerId with
  | none => exact ⟨hkey, rfl, rfl, rfl, rfl, rfl, by simp [packetData], hpeer⟩
  | some id => exact ⟨hkey, rfl, rfl, rfl, rfl, rfl, by simp [packetData], hpeer⟩

theorem processPacket_serialize (P : Primitives) (clock : Clock) (s : ProtocolSession)
    (packet : DataPacket) (hkey : packet.keyId.val < 8)
    (hpeer : ∀ id ∈ packet.peerId, id.toNat < 2 ^ 24) :
    processPacket P clock packet.serialize s =
      processDataPacket P (packetData packet) { s with lastActivity := clock.now } := by
  have hparse : Packet.parse packet.serialize s.useTlsAuth = .ok (.data (packetData packet)) := by
    rw [← serialize_packetData]
    exact PacketCodec.parse_eq_ok_iff.mpr
      ⟨PacketCodec.canonical_of_wellFormed (wellFormed_packetData hkey hpeer _), rfl⟩
  have hverify : ∀ t : ProtocolSession, verifyTlsAuth P t packet.serialize = .ok () := by
    intro t
    obtain ⟨keyId, peerId, payload⟩ := packet
    cases peerId with
    | none => exact verifyTlsAuth_of_isData P t rfl hkey _
    | some id => exact verifyTlsAuth_of_isData P t rfl hkey _
  simp [processPacket, bind_apply, hverify, hparse]

end CoreVpn.Protocol.Datagrams
