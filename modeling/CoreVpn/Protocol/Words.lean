import CoreVpn.Lib.Checked
import CoreVpn.Protocol.Totality
import CoreVpn.Protocol.SessionRuns

namespace CoreVpn.Protocol.Words

open Lib.Computation Lib.Wire Lib.Checked Lib.Text Crypto.Ciphers Crypto.Keys Crypto.Replay
open Crypto.Errors Errors Opcodes DataChannels Reliable TlsRecords Sessions SessionFrames SessionRuns
open Packets (PacketHeader ControlPacketData DataPacketData Packet SessionId)
open ControlMessages (KeyMethodV2)

/-- Bytes in memory: their number fits a signed word. -/
abbrev RawBytes := { data : Bytes // data.length < 2 ^ 63 }

variable {data : Bytes} {offset n : Nat}

section Parsing

def ensure (data : Bytes) (offset n : Nat) : Outcome ProtocolError Nat := do
  let stop ← addUsize offset n
  if data.length < stop then .error (.error (.packetTooShort stop data.length)) else return stop

def field (n : Nat) (data : Bytes) (offset : Nat) : Outcome ProtocolError (ByteVec n × Nat) := do
  let stop ← ensure data offset n
  return (← toFixed n (← slice data offset stop), stop)

def parseControlFields (data : Bytes) (opcode : OpCode) (keyId : KeyId) (hasTlsAuth : Bool) :
    Outcome ProtocolError (PacketHeader × Nat) := do
  let (sessionId, offset) ← field 8 data 1
  if hasTlsAuth then
    let (hmac, offset) ← field 32 data offset
    let (packetId, offset) ← field 4 data offset
    let (timestamp, offset) ← field 4 data offset
    return (⟨opcode, keyId, some sessionId, some hmac, some (fromBe32 packetId),
      some (fromBe32 timestamp)⟩, offset)
  else
    return (⟨opcode, keyId, some sessionId, none, none, none⟩, offset)

def parseHeader (data : Bytes) (hasTlsAuth : Bool) : Outcome ProtocolError (PacketHeader × Nat) := do
  if data.isEmpty then
    .error (.error (.packetTooShort 1 0))
  else
    let first ← index data 0
    let opcode ← OpCode.fromByte first
    let keyId := KeyId.fromByte first
    if opcode.isData then
      return (⟨opcode, keyId, none, none, none, none⟩, 1)
    else
      parseControlFields data opcode keyId hasTlsAuth

def parsePeerId (data : Bytes) (opcode : OpCode) (offset : Nat) :
    Outcome ProtocolError (Option UInt32 × Nat) := do
  if opcode = .dataV2 then
    let stop ← ensure data offset 3
    let a ← index data offset
    let b ← index data (← addUsize offset 1)
    let c ← index data (← addUsize offset 2)
    return (some (fromBe24 a b c), stop)
  else
    return (none, offset)

def parseData (data : Bytes) (header : PacketHeader) (offset : Nat) : Outcome ProtocolError Packet := do
  let (peerId, offset) ← parsePeerId data header.opcode offset
  if offset > data.length then
    .error (.error (.packetTooShort offset data.length))
  else
    let payload ← slice data offset data.length
    return .data ⟨header, peerId, payload⟩

def parseAcks (data : Bytes) : Nat → Nat → Outcome ProtocolError (List UInt32 × Nat)
  | 0, offset => .ok ([], offset)
  | count + 1, offset => do
    let (ack, offset) ← field 4 data offset
    let (acks, offset) ← parseAcks data count offset
    return (fromBe32 ack :: acks, offset)

def parseAckArray (data : Bytes) (offset : Nat) :
    Outcome ProtocolError (List UInt32 × Option SessionId × Nat) := do
  let start ← ensure data offset 1
  let ackCount := (← index data offset).toNat
  if ackCount > Packet.maxAckCount then
    .error (.error (.invalidPacket s!"ACK count {ackCount} exceeds maximum {Packet.maxAckCount}"))
  else if ackCount > 0 then
    let (acks, offset) ← parseAcks data ackCount start
    let (remoteSessionId, offset) ← field 8 data offset
    return (acks, some remoteSessionId, offset)
  else
    return ([], none, start)

def parseMessageId (data : Bytes) (opcode : OpCode) (offset : Nat) :
    Outcome ProtocolError (Option UInt32 × Nat) := do
  if opcode ≠ .ackV1 then
    let stop ← addUsize offset 4
    if stop ≤ data.length then
      let id ← toFixed 4 (← slice data offset stop)
      return (some (fromBe32 id), stop)
    else
      return (none, offset)
  else
    return (none, offset)

def parseControl (data : Bytes) (header : PacketHeader) (offset : Nat) : Outcome ProtocolError Packet := do
  let (acks, remoteSessionId, offset) ← parseAckArray data offset
  let (messagePacketId, offset) ← parseMessageId data header.opcode offset
  let payload ← Packet.parsePayload data offset
  return .control ⟨header, remoteSessionId, acks, messagePacketId, payload⟩

def parsePacket (data : Bytes) (hasTlsAuth : Bool) : Outcome ProtocolError Packet := do
  let (header, offset) ← parseHeader data hasTlsAuth
  if header.opcode.isData then parseData data header offset else parseControl data header offset

theorem ensure_bind {α : Type} {f : Nat → Outcome ProtocolError α} (h : offset + n < 2 ^ 64) :
    (ensure data offset n >>= f) = (Packets.ensure data (offset + n) >>= fun _ => f (offset + n)) := by
  rw [ensure, addUsize_of_lt h, Outcome.ok_bind, Packets.ensure]
  split <;> rfl

theorem field_bind {α : Type} {f : ByteVec n × Nat → Outcome ProtocolError α} (h : offset + n < 2 ^ 64) :
    (field n data offset >>= f) = (Packets.field n data offset >>= fun bytes => f (bytes, offset + n)) := by
  rw [field, ensure_bind h, Packets.field, bind_assoc, bind_assoc]
  simp only [readFixed, bind_assoc, pure_bind]

theorem parseControlFields_eq (opcode : OpCode) (keyId : KeyId) (hasTlsAuth : Bool) :
    parseControlFields data opcode keyId hasTlsAuth =
      PacketHeader.parseControlFields data opcode keyId hasTlsAuth := by
  rw [parseControlFields, PacketHeader.parseControlFields, field_bind (by decide)]
  refine Outcome.bind_congr_ok fun sessionId _ => ?_
  cases hasTlsAuth with
  | false => rfl
  | true =>
    dsimp only
    rw [if_pos rfl, if_pos rfl, field_bind (by decide)]
    refine Outcome.bind_congr_ok fun hmac _ => ?_
    dsimp only
    rw [field_bind (by decide)]
    refine Outcome.bind_congr_ok fun packetId _ => ?_
    dsimp only
    rw [field_bind (by decide)]

theorem parseHeader_eq (data : Bytes) (hasTlsAuth : Bool) :
    parseHeader data hasTlsAuth = PacketHeader.parse data hasTlsAuth := by
  simp only [parseHeader, PacketHeader.parse, parseControlFields_eq]

theorem le_of_field {bytes : ByteVec n} (h : Packets.field n data offset = .ok bytes) :
    offset + n ≤ data.length := by
  obtain ⟨_, hroom, -⟩ := Outcome.bind_eq_ok_iff.mp h
  exact HeaderCodec.ensure_eq_ok_iff.mp hroom

theorem le_of_parseHeader {hasTlsAuth : Bool} {header : PacketHeader}
    (h : PacketHeader.parse data hasTlsAuth = .ok (header, offset)) : offset ≤ data.length := by
  obtain ⟨-, hoffset, hfront⟩ := HeaderCodec.canonical_of_parse h
  have hlength := congrArg List.length hfront
  rw [List.length_append, ← hoffset] at hlength
  omega

theorem le_of_parseAckArray {acks : List UInt32} {id : Option SessionId} {next : Nat}
    (h : offset ≤ data.length) (hacks : Packet.parseAckArray data offset = .ok (acks, id, next)) :
    next ≤ data.length := by
  obtain ⟨-, -, hnext, hdrop⟩ := PacketFields.serializeAcks_of_parse hacks
  have hlength := congrArg List.length hdrop
  rw [List.length_append, List.length_drop, List.length_drop] at hlength
  omega

variable (hdata : data.length < 2 ^ 63)

include hdata

theorem parsePeerId_eq (opcode : OpCode) (h : offset ≤ data.length) :
    parsePeerId data opcode offset = Packet.parsePeerId data opcode offset := by
  unfold parsePeerId Packet.parsePeerId
  split
  · rw [ensure_bind (by omega), addUsize_of_lt (by omega), addUsize_of_lt (by omega)]
    rfl
  · rfl

theorem parseData_eq (header : PacketHeader) (h : offset ≤ data.length) :
    parseData data header offset = Packet.parseData data header offset := by
  rw [parseData, Packet.parseData, parsePeerId_eq hdata _ h]

theorem parseAcks_eq (count : Nat) (h : offset ≤ data.length) :
    parseAcks data count offset = Packet.parseAcks data count offset := by
  induction count generalizing offset with
  | zero => rfl
  | succ count ih =>
    rw [parseAcks, Packet.parseAcks, field_bind (by omega)]
    refine Outcome.bind_congr_ok fun ack hack => ?_
    dsimp only
    rw [ih (le_of_field hack)]

theorem parseAckArray_eq (h : offset ≤ data.length) :
    parseAckArray data offset = Packet.parseAckArray data offset := by
  rw [parseAckArray, Packet.parseAckArray, ensure_bind (by omega)]
  refine Outcome.bind_congr_ok fun _ hroom => Outcome.bind_congr_ok fun count _ => ?_
  have hstart := HeaderCodec.ensure_eq_ok_iff.mp hroom
  dsimp only
  split
  · rfl
  · split
    · rw [parseAcks_eq hdata _ hstart]
      refine Outcome.bind_congr_ok fun result hacks => ?_
      obtain ⟨acks, next⟩ := result
      dsimp only
      have hnext := (PacketFields.parseAcks_eq_ok_iff.mp hacks).2
      have hcount := count.toNat_lt
      rw [field_bind (by omega)]
    · rfl

theorem parseMessageId_eq (opcode : OpCode) (h : offset ≤ data.length) :
    parseMessageId data opcode offset = Packet.parseMessageId data opcode offset := by
  unfold parseMessageId Packet.parseMessageId
  by_cases hop : opcode = .ackV1
  · simp [hop]
  · rw [if_pos hop, addUsize_of_lt (by omega), Outcome.ok_bind]
    simp only [hop, ne_eq, not_false_eq_true, true_and, readFixed, bind_assoc]

theorem parseControl_eq (header : PacketHeader) (h : offset ≤ data.length) :
    parseControl data header offset = Packet.parseControl data header offset := by
  rw [parseControl, Packet.parseControl, parseAckArray_eq hdata h]
  refine Outcome.bind_congr_ok fun result hacks => ?_
  obtain ⟨acks, remoteSessionId, next⟩ := result
  dsimp only
  rw [parseMessageId_eq hdata _ (le_of_parseAckArray h hacks)]

theorem parsePacket_eq (hasTlsAuth : Bool) : parsePacket data hasTlsAuth = Packet.parse data hasTlsAuth := by
  rw [parsePacket, Packet.parse, parseHeader_eq]
  refine Outcome.bind_congr_ok fun result hhead => ?_
  obtain ⟨header, offset⟩ := result
  dsimp only
  rw [parseData_eq hdata header (le_of_parseHeader hhead), parseControl_eq hdata header (le_of_parseHeader hhead)]

end Parsing

section KeyMethods

def readLengthPrefixedString (data : Bytes) (offset : Nat) : Outcome ProtocolError (String × Nat) := do
  let start ← addUsize offset 2
  if start > data.length then
    .error (.error (.packetTooShort start data.length))
  else
    let hi ← index data offset
    let lo ← index data (← addUsize offset 1)
    let stop ← addUsize start (fromBe16 hi lo).toNat
    if stop > data.length then
      .error (.error (.packetTooShort stop data.length))
    else
      match fromUtf8 (← slice data start stop) with
      | some s => return (trimEndMatches s '\x00', stop)
      | none => .error (.error (.invalidPacket "invalid UTF-8 in key method v2"))

def readOptional (data : Bytes) (offset : Nat) : Outcome ProtocolError (Option String × Nat) := do
  let start ← addUsize offset 2
  if start ≤ data.length then
    let (s, next) ← readLengthPrefixedString data offset
    return (if s.isEmpty then none else some s, next)
  else return (none, offset)

def take (n : Nat) (data : Bytes) (offset : Nat) : Outcome ProtocolError (ByteVec n × Nat) := do
  let stop ← addUsize offset n
  return (← toFixed n (← slice data offset stop), stop)

def parseKeyMethod (data : Bytes) : Outcome ProtocolError KeyMethodV2 := do
  if data.length < 119 then
    .error (.error (.packetTooShort 119 data.length))
  else
    let keyMethod ← index data 4
    if keyMethod ≠ 2 then
      .error (.error (.invalidPacket s!"unsupported key method: {keyMethod}"))
    else
      let (preMaster, offset) ← take 48 data 5
      let (random1, offset) ← take 32 data offset
      let (random2, offset) ← take 32 data offset
      let (options, offset) ← readLengthPrefixedString data offset
      let (username, offset) ← readOptional data offset
      let (password, offset) ← readOptional data offset
      let (peerInfo, _) ← readOptional data offset
      return { preMaster, random1, random2, options, username, password, peerInfo }

def parseFromServer (data : Bytes) : Outcome ProtocolError KeyMethodV2 := do
  if data.length < 71 then
    .error (.error (.packetTooShort 71 data.length))
  else
    let keyMethod ← index data 4
    if keyMethod ≠ 2 then
      .error (.error (.invalidPacket s!"unsupported key method: {keyMethod}"))
    else
      let (random1, offset) ← take 32 data 5
      let (random2, offset) ← take 32 data offset
      let (options, _) ← readLengthPrefixedString data offset
      return { preMaster := zeros 48, random1, random2, options, username := none, password := none
               peerInfo := none }

theorem take_bind {α : Type} {f : ByteVec n × Nat → Outcome ProtocolError α} (h : offset + n < 2 ^ 64) :
    (take n data offset >>= f) = (readFixed n data offset >>= fun bytes => f (bytes, offset + n)) := by
  rw [take, addUsize_of_lt h, Outcome.ok_bind, readFixed]
  simp only [bind_assoc, pure_bind]

theorem le_of_readLengthPrefixedString {s : String} {next : Nat}
    (h : KeyMethodV2.readLengthPrefixedString data offset = .ok (s, next)) : next ≤ data.length := by
  unfold KeyMethodV2.readLengthPrefixedString at h
  split at h
  · cases h
  · simp only [Outcome.bind_eq_ok_iff] at h
    obtain ⟨hi, -, lo, -, h⟩ := h
    split at h
    · cases h
    · rename_i hroom
      obtain ⟨text, -, h⟩ := Outcome.bind_eq_ok_iff.mp h
      split at h
      · cases h
        exact Nat.le_of_not_lt hroom
      · cases h

theorem le_of_readOptional {s : Option String} {next : Nat} (hle : offset ≤ data.length)
    (h : KeyMethodV2.readOptional data offset = .ok (s, next)) : next ≤ data.length := by
  unfold KeyMethodV2.readOptional at h
  split at h
  · obtain ⟨⟨text, stop⟩, hread, h⟩ := Outcome.bind_eq_ok_iff.mp h
    cases h
    exact le_of_readLengthPrefixedString hread
  · cases h
    exact hle

variable (hdata : data.length < 2 ^ 63)

include hdata

theorem readLengthPrefixedString_eq (h : offset ≤ data.length) :
    readLengthPrefixedString data offset = KeyMethodV2.readLengthPrefixedString data offset := by
  unfold readLengthPrefixedString KeyMethodV2.readLengthPrefixedString
  rw [addUsize_of_lt (by omega), Outcome.ok_bind]
  split
  · rfl
  · refine Outcome.bind_congr_ok fun hi _ => ?_
    rw [addUsize_of_lt (by omega), Outcome.ok_bind]
    refine Outcome.bind_congr_ok fun lo _ => ?_
    have hlength := (fromBe16 hi lo).toNat_lt
    rw [addUsize_of_lt (by omega)]
    rfl

theorem readOptional_eq (h : offset ≤ data.length) :
    readOptional data offset = KeyMethodV2.readOptional data offset := by
  rw [readOptional, KeyMethodV2.readOptional, addUsize_of_lt (by omega), Outcome.ok_bind,
    readLengthPrefixedString_eq hdata h]

theorem parseKeyMethod_eq : parseKeyMethod data = KeyMethodV2.parse data := by
  unfold parseKeyMethod KeyMethodV2.parse
  split
  · rfl
  · refine Outcome.bind_congr_ok fun keyMethod _ => ?_
    split
    · rfl
    · rw [take_bind (by decide)]
      refine Outcome.bind_congr_ok fun preMaster _ => ?_
      dsimp only
      rw [take_bind (by decide)]
      refine Outcome.bind_congr_ok fun random1 _ => ?_
      dsimp only
      rw [take_bind (by decide)]
      refine Outcome.bind_congr_ok fun random2 _ => ?_
      dsimp only
      rw [readLengthPrefixedString_eq hdata (by omega)]
      refine Outcome.bind_congr_ok fun ⟨options, offset⟩ hoptions => ?_
      have hle := le_of_readLengthPrefixedString hoptions
      dsimp only
      rw [readOptional_eq hdata hle]
      refine Outcome.bind_congr_ok fun ⟨username, offset⟩ husername => ?_
      have hle := le_of_readOptional hle husername
      dsimp only
      rw [readOptional_eq hdata hle]
      refine Outcome.bind_congr_ok fun ⟨password, offset⟩ hpassword => ?_
      dsimp only
      rw [readOptional_eq hdata (le_of_readOptional hle hpassword)]

theorem parseFromServer_eq : parseFromServer data = KeyMethodV2.parseFromServer data := by
  unfold parseFromServer KeyMethodV2.parseFromServer
  split
  · rfl
  · refine Outcome.bind_congr_ok fun keyMethod _ => ?_
    split
    · rfl
    · rw [take_bind (by decide)]
      refine Outcome.bind_congr_ok fun random1 _ => ?_
      dsimp only
      rw [take_bind (by decide)]
      refine Outcome.bind_congr_ok fun random2 _ => ?_
      dsimp only
      rw [readLengthPrefixedString_eq hdata (by omega)]

end KeyMethods

section Records

def add (chunk : Bytes) : Program TlsRecordReassembler ProtocolError Unit := do
  let self ← get
  let total ← lift (addUsize self.buffer.length chunk.length)
  if total > self.maxSize then
    fail (.invalidPacket "TLS record too large")
  else
    modify fun s => { s with buffer := s.buffer ++ chunk }

def takeRecords : Nat → Bytes → Outcome ProtocolError (List Bytes × Bytes)
  | 0, buffer => .ok ([], buffer)
  | fuel + 1, buffer =>
    if 5 ≤ buffer.length then do
      let hi ← index buffer 3
      let lo ← index buffer 4
      let stop ← addUsize 5 (fromBe16 hi lo).toNat
      if buffer.length < stop then return ([], buffer)
      else
        let record ← slice buffer 0 stop
        let rest ← slice buffer stop buffer.length
        let (records, rest) ← takeRecords fuel rest
        return (record :: records, rest)
    else return ([], buffer)

def extractRecords : Program TlsRecordReassembler ProtocolError (List Bytes) := do
  let self ← get
  let (records, rest) ← lift (takeRecords self.buffer.length self.buffer)
  modify fun s => { s with buffer := rest }
  return records

theorem add_eq {chunk : Bytes} {r : TlsRecordReassembler} (h : r.buffer.length + chunk.length < 2 ^ 64) :
    add chunk r = TlsRecordReassembler.add chunk r := by
  rw [add, TlsRecordReassembler.add, bind_apply, bind_apply, get_apply]
  dsimp only
  rw [addUsize_of_lt h]
  rfl

theorem takeRecords_eq (fuel : Nat) (buffer : Bytes) :
    takeRecords fuel buffer = .ok (TlsRecordReassembler.splitRecords fuel buffer) := by
  induction fuel generalizing buffer with
  | zero => rfl
  | succ fuel ih =>
    match buffer with
    | [] | [_] | [_, _] | [_, _, _] | [_, _, _, _] => rfl
    | a :: b :: c :: hi :: lo :: body =>
      have hlength := (fromBe16 hi lo).toNat_lt
      rw [takeRecords, TlsRecordReassembler.splitRecords, if_pos (by simp)]
      change (addUsize 5 (fromBe16 hi lo).toNat >>= _) = _
      rw [addUsize_of_lt (by omega), Outcome.ok_bind]
      dsimp only
      split
      · rfl
      · rename_i hroom
        have hstop := Nat.le_of_not_lt hroom
        rw [slice_of_le (Nat.zero_le _) hstop, Outcome.ok_bind, slice_to_end hstop,
          Outcome.ok_bind, ih]
        rfl

theorem extractRecords_eq (r : TlsRecordReassembler) :
    extractRecords r = (.ok r.extractRecords.1, r.extractRecords.2) := by
  rw [extractRecords, bind_apply, get_apply]
  dsimp only
  rw [takeRecords_eq]
  rfl

end Records

section Decrypting

/-- The line that is printed for the first packets shows at most twenty bytes. -/
def showPacket (pidBytes : ByteVec 4) (packet : Bytes) : Outcome CryptoError Unit :=
  if fromBe32 pidBytes ≤ 3 then do
    let _ ← slice packet 0 (min 20 packet.length)
    return ()
  else return ()

def decryptEither (A : Aead) (self : PacketCipher) (pidBytes : ByteVec 4) (packet adPrefix : Bytes) :
    Outcome CryptoError Bytes := do
  let nonce := PacketCipher.buildNonce self.implicitIv pidBytes
  let _ ← addUsize adPrefix.length PacketCipher.packetIdSize
  let aad := adPrefix ++ pidBytes.toList
  showPacket pidBytes packet
  let tag ← slice packet PacketCipher.packetIdSize PacketCipher.minPacketSize
  let ct ← slice packet PacketCipher.minPacketSize packet.length
  let _ ← addUsize ct.length CipherSuite.tagSize
  let ctTagEnd ← slice packet PacketCipher.packetIdSize packet.length
  match self.cipher.decrypt A nonce ctTagEnd aad with
  | .ok plaintext => .ok plaintext
  | .error _ => self.cipher.decrypt A nonce (ct ++ tag) aad

def decrypt (A : Aead) (packet adPrefix : Bytes) : Program PacketCipher CryptoError Bytes := do
  if packet.length < PacketCipher.minPacketSize then
    fail .decryptionFailed
  else
    let pidBytes ← lift (readFixed 4 packet 0)
    let counter := (fromBe32 pidBytes).toBitVec.setWidth 64
    let fresh ← zoom PacketCipher.rxWindow (fun w s => { s with rxWindow := w }) id
      (DataWindow.checkAndUpdate counter)
    if fresh then
      let self ← get
      lift (decryptEither A self pidBytes packet adPrefix)
    else
      fail .replayDetected

def decryptChannel (A : Aead) (packet : DataPacket) : Program DataChannel ProtocolError Bytes := do
  let self ← get
  if packet.keyId ≠ self.keyId then
    fail (.keyNotAvailable packet.keyId.val)
  else
    zoom DataChannel.decryptCipher (fun c s => { s with decryptCipher := c })
      ProtocolError.cryptoError (decrypt A packet.payload (DataChannel.decryptAdPrefix packet))

theorem showPacket_eq (pidBytes : ByteVec 4) (packet : Bytes) : showPacket pidBytes packet = .ok () := by
  unfold showPacket
  split
  · rw [slice_of_le (Nat.zero_le _) (Nat.min_le_right _ _)]
    rfl
  · rfl

variable {A : Aead} {packet adPrefix : Bytes}

theorem decryptEither_eq (hdata : packet.length < 2 ^ 63) (hlong : PacketCipher.minPacketSize ≤ packet.length)
    (had : adPrefix.length ≤ 4) (self : PacketCipher) (pidBytes : ByteVec 4) :
    decryptEither A self pidBytes packet adPrefix = PacketCipher.decryptEither A self pidBytes packet adPrefix := by
  have hsize : adPrefix.length + PacketCipher.packetIdSize < 2 ^ 64 := by
    change adPrefix.length + 4 < 2 ^ 64
    omega
  rw [decryptEither, PacketCipher.decryptEither, addUsize_of_lt hsize, Outcome.ok_bind, showPacket_eq,
    Outcome.ok_bind]
  refine Outcome.bind_congr_ok fun tag _ => Outcome.bind_congr_ok fun ct hct => ?_
  have hct' : ct.length + CipherSuite.tagSize < 2 ^ 64 := by
    rw [slice_to_end hlong] at hct
    obtain rfl := Except.ok.inj hct
    rw [List.length_drop]
    change packet.length - 20 + 16 < 2 ^ 64
    omega
  rw [addUsize_of_lt hct']
  rfl

theorem decrypt_eq (hdata : packet.length < 2 ^ 63) (had : adPrefix.length ≤ 4) :
    decrypt A packet adPrefix = PacketCipher.decrypt A packet adPrefix := by
  unfold decrypt PacketCipher.decrypt
  split
  · rfl
  · rename_i hlong
    simp only [decryptEither_eq hdata (Nat.le_of_not_lt hlong) had]

theorem length_decryptAdPrefix (packet : DataPacket) : (DataChannel.decryptAdPrefix packet).length ≤ 4 := by
  unfold DataChannel.decryptAdPrefix
  split
  · exact le_rfl
  · exact Nat.zero_le _

theorem decryptChannel_eq {packet : DataPacket} (hdata : packet.payload.length < 2 ^ 63) :
    decryptChannel A packet = DataChannel.decrypt A packet := by
  rw [decryptChannel, DataChannel.decrypt, decrypt_eq hdata (length_decryptAdPrefix packet)]

end Decrypting

section Processing

def verifyTlsAuth (P : Primitives) (self : ProtocolSession) (data : Bytes) : Outcome ProtocolError Unit := do
  match self.useTlsAuth, self.tlsAuthKey with
  | true, some key =>
    if data.isEmpty then return ()
    else
      let opcode ← OpCode.fromByte (← index data 0)
      if opcode.isControl then
        if data.length < 49 then
          .error (.error (.packetTooShort 49 data.length))
        else
          let hmac ← readFixed 32 data 9
          let _ ← subUsize (← addUsize (8 + 9) data.length) 49
          let replay ← slice data 41 49
          let head ← slice data 0 9
          let rest ← slice data 49 data.length
          Outcome.mapFault ProtocolError.cryptoError (key.verify P.hmac (replay ++ head ++ rest) hmac)
      else return ()
  | _, _ => return ()

def receiveTls (packetId : UInt32) (payload : Bytes) :
    Program ProtocolSession ProtocolError ProcessedPacket := do
  match ← ProtocolSession.onReliable (ReliableTransport.receive packetId payload) with
  | some chunk =>
    zoom ProtocolSession.tlsReassembler (fun r s => { s with tlsReassembler := r }) id (add chunk)
    let records ← zoom ProtocolSession.tlsReassembler (fun r s => { s with tlsReassembler := r }) id
      extractRecords
    return if records.isEmpty then .none else .tlsData records
  | none => return .none

/-- Only TLS data is measured, all else is handled as before. -/
def processOpcode (ctrl : ControlPacketData) : Program ProtocolSession ProtocolError ProcessedPacket :=
  if ctrl.header.opcode = .controlV1 then
    match ctrl.messagePacketId with
    | some packetId => receiveTls packetId ctrl.payload
    | none => return .none
  else ProtocolSession.processOpcode ctrl

def processControlPacket (P : Primitives) (clock : Clock) (ctrl : ControlPacketData) :
    Program ProtocolSession ProtocolError ProcessedPacket := do
  ProtocolSession.checkReplay ctrl.header.packetId
  modify fun s => if ctrl.acks.isEmpty then s
    else { s with reliable := s.reliable.processAcks P.time clock.now ctrl.acks }
  processOpcode ctrl

def processDataPacket (P : Primitives) (packet : DataPacketData) :
    Program ProtocolSession ProtocolError ProcessedPacket := do
  let decrypted ← ProtocolSession.onChannel packet.header.keyId
    (decryptChannel P.aead ⟨packet.header.keyId, packet.peerId, packet.payload⟩)
  return .data decrypted

def processPacket (P : Primitives) (clock : Clock) (data : Bytes) :
    Program ProtocolSession ProtocolError ProcessedPacket := do
  modify fun s => { s with lastActivity := clock.now }
  let self ← get
  lift (verifyTlsAuth P self data)
  match ← lift (parsePacket data self.useTlsAuth) with
  | .control ctrl => processControlPacket P clock ctrl
  | .data packet => processDataPacket P packet

variable {P : Primitives} {s : ProtocolSession}

theorem verifyTlsAuth_eq (hdata : data.length < 2 ^ 63) (self : ProtocolSession) :
    verifyTlsAuth P self data = self.verifyTlsAuth P data := by
  unfold verifyTlsAuth ProtocolSession.verifyTlsAuth
  cases self.useTlsAuth with
  | false => rfl
  | true =>
    cases self.tlsAuthKey with
    | none => rfl
    | some key =>
      dsimp only
      split
      · rfl
      · refine Outcome.bind_congr_ok fun first _ => Outcome.bind_congr_ok fun opcode _ => ?_
        split
        · split
          · rfl
          · refine Outcome.bind_congr_ok fun hmac _ => ?_
            rw [addUsize_of_lt (by omega), Outcome.ok_bind, subUsize_of_le (by omega)]
            rfl
        · rfl

theorem receive_delivers {packetId : UInt32} {payload chunk : Bytes} {r r' : ReliableTransport}
    (h : ReliableTransport.receive packetId payload r = (.ok (some chunk), r')) : chunk = payload := by
  rcases Receive.receive_cases r packetId payload with ⟨-, hrun⟩ | ⟨-, -, hrun⟩ | ⟨-, -, hrun⟩ | ⟨-, hrun⟩
  all_goals cases hrun.symm.trans h
  rfl

theorem receiveTls_eq (hs : Bounded s) (hdata : data.length < 2 ^ 63) (packetId : UInt32) :
    receiveTls packetId data s = ProtocolSession.receiveTls packetId data s := by
  refine bind_congr_ok fun delivered t hreceive => ?_
  cases delivered with
  | none => rfl
  | some chunk =>
    obtain ⟨r, hchunk, rfl⟩ := zoom_eq_ok hreceive
    obtain rfl := receive_delivers hchunk
    have hroom : s.tlsReassembler.buffer.length + chunk.length < 2 ^ 64 := by
      have hwithin := hs.within
      have hmax := hs.maxSize
      omega
    refine bind_congr_run ?_ fun _ u _ => ?_
    · rw [zoom, zoom, add_eq hroom]
    · rw [bind_apply, zoom, extractRecords_eq]
      rfl

theorem processOpcode_eq {ctrl : ControlPacketData} (hs : Bounded s) (hdata : ctrl.payload.length < 2 ^ 63) :
    processOpcode ctrl s = ProtocolSession.processOpcode ctrl s := by
  by_cases hop : ctrl.header.opcode = .controlV1
  · rw [processOpcode, if_pos hop, ProtocolSession.processOpcode, hop]
    cases ctrl.messagePacketId with
    | none => rfl
    | some packetId => exact receiveTls_eq hs hdata packetId
  · rw [processOpcode, if_neg hop]

theorem processControlPacket_eq {ctrl : ControlPacketData} (clock : Clock) (hs : Bounded s)
    (hdata : ctrl.payload.length < 2 ^ 63) :
    processControlPacket P clock ctrl s = ProtocolSession.processControlPacket P clock ctrl s := by
  refine bind_congr_ok fun _ t hreplay => bind_congr_ok fun _ u hacks => ?_
  have ht := hs.of_keeps ((frames_checkReplay (fun _ _ => keepsBound_of_eq rfl) _).rel hreplay)
  refine processOpcode_eq (ht.of_keeps (keepsBound_of_eq ?_)) hdata
  obtain ⟨-, rfl⟩ := Prod.mk.inj hacks
  split <;> rfl

theorem processDataPacket_eq {packet : DataPacketData} (hdata : packet.payload.length < 2 ^ 63) :
    processDataPacket P packet = ProtocolSession.processDataPacket P packet := by
  rw [processDataPacket, ProtocolSession.processDataPacket, decryptChannel_eq hdata]

theorem length_payload_le {hasTlsAuth : Bool} {p : Packet} (h : Packet.parse data hasTlsAuth = .ok p) :
    match p with
    | .control ctrl => ctrl.payload.length ≤ data.length
    | .data packet => packet.payload.length ≤ data.length := by
  obtain ⟨-, rfl⟩ := PacketCodec.parse_eq_ok_iff.mp h
  cases p with
  | control ctrl => exact List.length_append ▸ Nat.le_add_left _ _
  | data packet => exact List.length_append ▸ Nat.le_add_left _ _

/-- The arithmetic of the machine makes no difference to a session that keeps
its limits. -/
theorem processPacket_eq (clock : Clock) (hs : Bounded s) (hdata : data.length < 2 ^ 63) :
    processPacket P clock data s = ProtocolSession.processPacket P clock data s := by
  refine bind_congr_ok fun _ t hnoted => bind_congr_ok fun self u hself => ?_
  refine bind_congr_run (by rw [verifyTlsAuth_eq hdata]) fun _ v hverify => ?_
  refine bind_congr_run (by rw [parsePacket_eq hdata]) fun packet w hparse => ?_
  obtain ⟨-, rfl⟩ := Prod.mk.inj hnoted
  obtain ⟨-, rfl⟩ := Prod.mk.inj hself
  obtain ⟨-, rfl⟩ := Prod.mk.inj hverify
  obtain ⟨hpacket, rfl⟩ := Prod.mk.inj hparse
  have hpayload := length_payload_le hpacket
  cases packet with
  | control ctrl => exact processControlPacket_eq clock ⟨hs.maxSize, hs.within⟩ (hpayload.trans_lt hdata)
  | data packet =>
    dsimp only
    rw [processDataPacket_eq (hpayload.trans_lt hdata)]

end Processing

end CoreVpn.Protocol.Words
