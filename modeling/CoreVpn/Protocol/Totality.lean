import CoreVpn.Crypto.Decryption
import CoreVpn.Protocol.ControlMessages
import CoreVpn.Protocol.PacketCodec
import CoreVpn.Protocol.Receive
import CoreVpn.Protocol.RecordStreams

namespace CoreVpn.Protocol.Totality

open Lib.Computation Lib.Wire Crypto.Replay Crypto.Ciphers Crypto.Decryption Crypto.Keys
open Errors Opcodes Packets DataChannels Reliable TlsRecords Sessions ProtocolSession ControlMessages
open Outcome (noPanic_ok noPanic_error)

variable {data : Bytes} {offset n : Nat}

section Reads

variable {ε : Type}

theorem noPanic_index (h : offset < data.length) : (index data offset : Outcome ε UInt8).NoPanic := by
  rw [index_of_lt h]
  exact noPanic_ok _

theorem noPanic_slice {stop : Nat} (hab : offset ≤ stop) (hb : stop ≤ data.length) :
    (slice data offset stop : Outcome ε Bytes).NoPanic := by
  rw [slice_of_le hab hb]
  exact noPanic_ok _

theorem noPanic_readFixed (h : offset + n ≤ data.length) :
    (readFixed n data offset : Outcome ε (ByteVec n)).NoPanic := by
  rw [readFixed_of_le h]
  exact noPanic_ok _

end Reads

section Parsing

theorem noPanic_ensure (data : Bytes) (n : Nat) : (ensure data n).NoPanic := by
  unfold ensure
  split
  · exact noPanic_error _
  · exact noPanic_ok _

theorem noPanic_ensure_bind {α : Type} {rest : Outcome ProtocolError α} (h : n ≤ data.length → rest.NoPanic) :
    (ensure data n >>= fun _ => rest).NoPanic :=
  (noPanic_ensure data n).bind fun _ hroom => h (HeaderCodec.ensure_eq_ok_iff.mp hroom)

theorem noPanic_field (n : Nat) (data : Bytes) (offset : Nat) : (field n data offset).NoPanic :=
  noPanic_ensure_bind noPanic_readFixed

theorem noPanic_fromByte (byte : UInt8) : (OpCode.fromByte byte).NoPanic := by
  unfold OpCode.fromByte
  split
  all_goals first | exact noPanic_ok _ | exact noPanic_error _

theorem noPanic_parseControlFields (data : Bytes) (opcode : OpCode) (keyId : KeyId) (hasTlsAuth : Bool) :
    (PacketHeader.parseControlFields data opcode keyId hasTlsAuth).NoPanic := by
  refine (noPanic_field 8 data 1).bind fun sessionId _ => ?_
  cases hasTlsAuth with
  | false => exact noPanic_ok _
  | true =>
    refine (noPanic_field 32 data 9).bind fun hmac _ => (noPanic_field 4 data 41).bind fun packetId _ => ?_
    exact (noPanic_field 4 data 45).bind fun timestamp _ => noPanic_ok _

theorem noPanic_parseHeader (data : Bytes) (hasTlsAuth : Bool) :
    (PacketHeader.parse data hasTlsAuth).NoPanic := by
  cases data with
  | nil => exact noPanic_error _
  | cons first rest =>
    refine (noPanic_fromByte first).bind fun opcode _ => ?_
    dsimp only
    split
    · exact noPanic_ok _
    · exact noPanic_parseControlFields _ _ _ _

theorem noPanic_parsePeerId (data : Bytes) (opcode : OpCode) (offset : Nat) :
    (Packet.parsePeerId data opcode offset).NoPanic := by
  unfold Packet.parsePeerId
  split
  · refine noPanic_ensure_bind fun hroom => (noPanic_index (by omega)).bind fun _ _ => ?_
    exact (noPanic_index (by omega)).bind fun _ _ => (noPanic_index (by omega)).bind fun _ _ => noPanic_ok _
  · exact noPanic_ok _

theorem noPanic_parseData (data : Bytes) (header : PacketHeader) (offset : Nat) :
    (Packet.parseData data header offset).NoPanic := by
  refine (noPanic_parsePeerId _ _ _).bind fun peer _ => ?_
  dsimp only
  split
  · exact noPanic_error _
  · rename_i hroom
    exact (noPanic_slice (Nat.le_of_not_lt hroom) le_rfl).bind fun _ _ => noPanic_ok _

theorem noPanic_parseAcks (data : Bytes) (count offset : Nat) :
    (Packet.parseAcks data count offset).NoPanic := by
  induction count generalizing offset with
  | zero => exact noPanic_ok _
  | succ count ih =>
    exact (noPanic_field 4 data offset).bind fun _ _ => (ih (offset + 4)).bind fun _ _ => noPanic_ok _

theorem noPanic_parseAckArray (data : Bytes) (offset : Nat) : (Packet.parseAckArray data offset).NoPanic := by
  refine noPanic_ensure_bind fun hroom => (noPanic_index (by omega)).bind fun count _ => ?_
  dsimp only
  split
  · exact noPanic_error _
  · split
    · refine (noPanic_parseAcks _ _ _).bind fun acks _ => ?_
      exact (noPanic_field _ _ _).bind fun _ _ => noPanic_ok _
    · exact noPanic_ok _

theorem noPanic_parseMessageId (data : Bytes) (opcode : OpCode) (offset : Nat) :
    (Packet.parseMessageId data opcode offset).NoPanic := by
  unfold Packet.parseMessageId
  split
  · rename_i hroom
    exact (noPanic_readFixed hroom.2).bind fun _ _ => noPanic_ok _
  · exact noPanic_ok _

theorem noPanic_parsePayload (data : Bytes) (offset : Nat) : (Packet.parsePayload data offset).NoPanic := by
  unfold Packet.parsePayload
  split
  · rename_i hlt
    exact noPanic_slice hlt.le le_rfl
  · exact noPanic_ok _

theorem noPanic_parse (data : Bytes) (hasTlsAuth : Bool) : (Packet.parse data hasTlsAuth).NoPanic := by
  refine (noPanic_parseHeader data hasTlsAuth).bind fun head _ => ?_
  dsimp only
  split
  · exact noPanic_parseData _ _ _
  · refine (noPanic_parseAckArray _ _).bind fun acks _ => (noPanic_parseMessageId _ _ _).bind fun id _ => ?_
    exact (noPanic_parsePayload _ _).bind fun _ _ => noPanic_ok _

end Parsing

section KeyMethods

open KeyMethodV2

theorem noPanic_readLengthPrefixedString (data : Bytes) (offset : Nat) :
    (readLengthPrefixedString data offset).NoPanic := by
  unfold readLengthPrefixedString
  split
  · exact noPanic_error _
  · refine (noPanic_index (by omega)).bind fun hi _ => (noPanic_index (by omega)).bind fun lo _ => ?_
    dsimp only
    split
    · exact noPanic_error _
    · refine (noPanic_slice (Nat.le_add_right _ _) (by omega)).bind fun text _ => ?_
      split
      · exact noPanic_ok _
      · exact noPanic_error _

theorem noPanic_readOptional (data : Bytes) (offset : Nat) : (readOptional data offset).NoPanic := by
  unfold readOptional
  split
  · exact (noPanic_readLengthPrefixedString _ _).bind fun _ _ => noPanic_ok _
  · exact noPanic_ok _

theorem noPanic_parseKeyMethod (data : Bytes) : (KeyMethodV2.parse data).NoPanic := by
  unfold KeyMethodV2.parse
  split
  · exact noPanic_error _
  · refine (noPanic_index (by omega)).bind fun keyMethod _ => ?_
    split
    · exact noPanic_error _
    · refine (noPanic_readFixed (by omega)).bind fun _ _ => (noPanic_readFixed (by omega)).bind fun _ _ => ?_
      refine (noPanic_readFixed (by omega)).bind fun _ _ => ?_
      refine (noPanic_readLengthPrefixedString _ _).bind fun _ _ => (noPanic_readOptional _ _).bind fun _ _ => ?_
      exact (noPanic_readOptional _ _).bind fun _ _ => (noPanic_readOptional _ _).bind fun _ _ => noPanic_ok _

theorem noPanic_parseFromServer (data : Bytes) : (parseFromServer data).NoPanic := by
  unfold parseFromServer
  split
  · exact noPanic_error _
  · refine (noPanic_index (by omega)).bind fun keyMethod _ => ?_
    split
    · exact noPanic_error _
    · refine (noPanic_readFixed (by omega)).bind fun _ _ => (noPanic_readFixed (by omega)).bind fun _ _ => ?_
      exact (noPanic_readLengthPrefixedString _ _).bind fun _ _ => noPanic_ok _

end KeyMethods

section Processing

variable (P : Primitives)

theorem noPanic_verifyTlsAuth (self : ProtocolSession) (data : Bytes) :
    (self.verifyTlsAuth P data).NoPanic := by
  unfold verifyTlsAuth
  split
  · rename_i key _ _
    split
    · exact noPanic_ok _
    · rename_i hne
      have hpos : 0 < data.length := List.length_pos_iff.mpr (by simpa using hne)
      refine (noPanic_index hpos).bind fun first _ => (noPanic_fromByte first).bind fun opcode _ => ?_
      split
      · split
        · exact noPanic_error _
        · refine (noPanic_readFixed (by omega)).bind fun hmac _ => ?_
          refine (noPanic_slice (by omega) (by omega)).bind fun _ _ => ?_
          refine (noPanic_slice (by omega) (by omega)).bind fun _ _ => ?_
          refine (noPanic_slice (by omega) le_rfl).bind fun _ _ => Outcome.NoPanic.mapFault ?_ _
          unfold HmacAuth.verify
          split
          · exact noPanic_ok _
          · exact noPanic_error _
      · exact noPanic_ok _
  · exact noPanic_ok _

theorem total_checkAndUpdate {ε : Type} {m w : Nat} {W : BitVec m} (hW : W.toNat = w) (p : BitVec m) :
    Total (ReplayWindow.checkAndUpdate W p : Program (ReplayWindow m w) ε Bool) := by
  intro s
  rcases checkAndUpdate_cases (ε := ε) hW s p with ⟨-, t, -, hrun⟩ | ⟨-, hrun⟩
  · rw [hrun]
    exact noPanic_ok _
  · rw [hrun]
    exact noPanic_ok _

theorem total_checkReplay (packetId : Option UInt32) : Total (checkReplay packetId) := by
  refine total_bind total_get fun _ self _ => ?_
  split
  · refine total_bind (total_zoom (total_checkAndUpdate rfl _)) fun _ fresh _ => ?_
    split
    · exact total_pure _
    · exact total_fail _
  · exact total_pure _

theorem total_receive (packetId : UInt32) (payload : Bytes) :
    Total (ReliableTransport.receive packetId payload) := by
  intro t
  rcases Receive.receive_cases t packetId payload with ⟨-, hrun⟩ | ⟨-, -, hrun⟩ | ⟨-, -, hrun⟩ | ⟨-, hrun⟩
  all_goals rw [hrun]
  · exact noPanic_ok _
  · exact noPanic_error _
  · exact noPanic_ok _
  · exact noPanic_ok _

theorem total_acknowledge (id : Option UInt32) : Total (acknowledge id) := by
  cases id with
  | none => exact total_pure _
  | some id => exact total_bind (total_zoom (total_receive id [])) fun _ _ _ => total_pure _

theorem total_add (chunk : Bytes) : Total (TlsRecordReassembler.add chunk) := by
  intro r
  rw [RecordStreams.add_eq]
  split
  · exact noPanic_error _
  · exact noPanic_ok _

theorem total_receiveTls (packetId : UInt32) (payload : Bytes) : Total (receiveTls packetId payload) := by
  refine total_bind (total_zoom (total_receive packetId payload)) fun _ delivered _ => ?_
  cases delivered with
  | none => exact total_pure _
  | some chunk =>
    refine total_bind (total_zoom (total_add chunk)) fun _ _ _ => total_bind total_get fun _ self _ => ?_
    exact total_bind (total_modify _) fun _ _ _ => total_pure _

theorem total_acceptClientId (id : Option SessionId) : Total (acceptClientId id) := by
  cases id with
  | none => exact total_pure _
  | some id =>
    unfold acceptClientId
    dsimp only
    split
    · exact total_fail _
    · exact total_modify _

theorem total_processOpcode (ctrl : ControlPacketData) : Total (processOpcode ctrl) := by
  unfold processOpcode
  split
  · refine total_bind (total_acceptClientId _) fun _ _ _ => total_bind (total_acknowledge _) fun _ _ _ => ?_
    exact total_bind (total_modify _) fun _ _ _ => total_bind total_get fun _ _ _ => total_pure _
  · refine total_bind (total_acceptClientId _) fun _ _ _ => total_bind (total_acknowledge _) fun _ _ _ => ?_
    exact total_bind (total_modify _) fun _ _ _ => total_bind total_get fun _ _ _ => total_pure _
  · refine total_bind (total_modify _) fun _ _ _ => total_bind (total_acknowledge _) fun _ _ _ => ?_
    exact total_bind (total_modify _) fun _ _ _ => total_pure _
  · split
    · exact total_receiveTls _ _
    · exact total_pure _
  · exact total_pure _
  · exact total_bind (total_modify _) fun _ _ _ => total_pure _
  · exact total_fail _

theorem total_decrypt (A : Aead) (packet adPrefix : Bytes) : Total (PacketCipher.decrypt A packet adPrefix) := by
  intro s
  rcases decrypt_cases A s packet adPrefix with ⟨-, hrun⟩ | ⟨-, -, -, hrun⟩ | ⟨-, -, t, -, -, hrun⟩
  all_goals rw [hrun]
  · exact noPanic_error _
  · exact noPanic_error _
  · dsimp only
    split
    · exact noPanic_ok _
    · exact noPanic_error _

theorem total_decryptChannel (A : Aead) (packet : DataPacket) : Total (DataChannel.decrypt A packet) := by
  refine total_bind total_get fun _ self _ => ?_
  split
  · exact total_fail _
  · exact total_zoom (total_decrypt A _ _)

theorem total_onChannel {α : Type} {keyId : KeyId} (hkey : keyId.val < 8)
    {p : Program DataChannel ProtocolError α} (hp : Total p) : Total (onChannel keyId p) := by
  intro s
  have hlt : keyId.val.toNat < 8 := UInt8.lt_iff_toNat_lt.mp hkey
  rw [onChannel, dif_pos hlt]
  split
  · exact hp _
  · exact noPanic_error _

theorem total_processPacket (clock : Clock) (data : Bytes) : Total (processPacket P clock data) := by
  refine total_bind (total_modify _) fun _ _ _ => total_bind total_get fun _ self _ => ?_
  refine total_bind (total_lift (noPanic_verifyTlsAuth P self data)) fun _ _ _ => ?_
  refine total_bind (total_lift (noPanic_parse data self.useTlsAuth)) fun _ packet hparse => ?_
  cases packet with
  | control ctrl =>
    refine total_bind (total_checkReplay _) fun _ _ _ => total_bind (total_modify _) fun _ _ _ => ?_
    exact total_processOpcode ctrl
  | data packet =>
    have hkey := (PacketCodec.parse_eq_ok_iff.mp hparse).1.1.keyId_lt
    exact total_bind (total_onChannel hkey (total_decryptChannel P.aead _)) fun _ _ _ => total_pure _

end Processing

end CoreVpn.Protocol.Totality
