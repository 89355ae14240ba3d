import CoreVpn.Protocol.PacketFields

namespace CoreVpn.Protocol.PacketCodec

open Lib.Computation Lib.Wire Errors Opcodes Packets HeaderCodec PacketFields

variable {data : Bytes} {hasTlsAuth : Bool} {offset : Nat} {header : PacketHeader}

/-- The packets that stand for some bytes. Apart from the header, at most 16
acks, the remote session id if and only if there are any, and a message id
unless the packet only acknowledges or has fewer than four bytes left. -/
def Canonical (hasTlsAuth : Bool) : Packet → Prop
  | .control ctrl =>
    HeaderCodec.Canonical hasTlsAuth ctrl.header ∧ ctrl.header.opcode.isData = false ∧
      ctrl.acks.length ≤ Packet.maxAckCount ∧ ctrl.remoteSessionId.isSome = !ctrl.acks.isEmpty ∧
      (ctrl.header.opcode = .ackV1 → ctrl.messagePacketId = none) ∧
      (ctrl.header.opcode ≠ .ackV1 → ctrl.messagePacketId = none → ctrl.payload.length < 4)
  | .data d =>
    HeaderCodec.Canonical hasTlsAuth d.header ∧ d.header.opcode.isData = true ∧
      (d.header.opcode = .dataV2 → ∃ id, d.peerId = some id ∧ id.toNat < 2 ^ 24) ∧
      (d.header.opcode ≠ .dataV2 → d.peerId = none)

theorem canonical_of_parseData {p : Packet} (hc : HeaderCodec.Canonical hasTlsAuth header)
    (hop : header.opcode.isData = true) (hhead : data = header.serialize ++ data.drop offset)
    (h : Packet.parseData data header offset = .ok p) :
    Canonical hasTlsAuth p ∧ p.serialize = data := by
  simp only [Packet.parseData, Outcome.bind_eq_ok_iff, Prod.exists] at h
  obtain ⟨peerId, next, hpeer, h⟩ := h
  obtain ⟨hsome, hnone, hd⟩ := of_parsePeerId hpeer
  split at h
  · cases h
  rename_i hle
  rw [slice_to_end (Nat.le_of_not_lt hle), Outcome.ok_bind] at h
  cases h
  refine ⟨⟨hc, hop, hsome, hnone⟩, ?_⟩
  rw [Packet.serialize, List.append_assoc, ← hd]
  exact hhead.symm

theorem canonical_of_parseControl {p : Packet} (hc : HeaderCodec.Canonical hasTlsAuth header)
    (hop : header.opcode.isData = false) (hhead : data = header.serialize ++ data.drop offset)
    (h : Packet.parseControl data header offset = .ok p) :
    Canonical hasTlsAuth p ∧ p.serialize = data := by
  simp only [Packet.parseControl, Outcome.bind_eq_ok_iff, Prod.exists] at h
  obtain ⟨acks, rsid, mid, hacks, id, next, hid, payload, hpayload, h⟩ := h
  obtain ⟨hmax, hrsid, -, hd⟩ := serializeAcks_of_parse hacks
  obtain ⟨hsome, hnext, hd'⟩ := parseMessageId_eq_ok_iff.mp hid
  rw [parsePayload_eq, Except.ok.injEq] at hpayload
  cases h
  subst hpayload
  refine ⟨⟨hc, hop, hmax, hrsid, fun hack => ?_, fun hack hnone => ?_⟩, ?_⟩
  · rw [← Option.not_isSome_iff_eq_none, hsome]
    exact fun hn => hn.1 hack
  · subst hnone
    have hshort : ¬ mid + 4 ≤ data.length := fun hle => by simpa using hsome.mpr ⟨hack, hle⟩
    rw [List.length_drop, hnext]
    omega
  · rw [Packet.serialize, List.append_assoc, List.append_assoc, ← hd', ← hd]
    exact hhead.symm

theorem parse_of_canonical_data {d : DataPacketData} (hc : Canonical hasTlsAuth (.data d)) :
    Packet.parse (Packet.serialize (.data d)) hasTlsAuth = .ok (.data d) := by
  obtain ⟨hh, hop, hsome, hnone⟩ := hc
  have hdrop : (Packet.serialize (.data d)).drop d.header.serialize.length =
      d.peerId.elim [] toBe24 ++ d.payload := by
    rw [Packet.serialize, List.append_assoc, List.drop_left]
  have hpay := drop_add_length hdrop
  have hlen : (Packet.serialize (.data d)).length =
      d.header.serialize.length + (d.peerId.elim [] toBe24).length + d.payload.length := by
    rw [Packet.serialize, List.length_append, List.length_append]
  have hhead := HeaderCodec.parse_of_canonical hh (d.peerId.elim [] toBe24 ++ d.payload)
  rw [← List.append_assoc] at hhead
  have hle : d.header.serialize.length + (d.peerId.elim [] toBe24).length ≤
      (Packet.serialize (.data d)).length := by omega
  rw [Packet.parse]
  change (PacketHeader.parse (d.header.serialize ++ d.peerId.elim [] toBe24 ++ d.payload) hasTlsAuth >>= _) = _
  rw [hhead, Outcome.ok_bind]
  simp only [hop, if_true, Packet.parseData, parsePeerId_of hsome hnone hdrop, Outcome.ok_bind,
    slice_to_end hle, hpay, Nat.not_lt.mpr hle, if_false, gt_iff_lt]
  rfl

theorem parse_of_canonical_control {ctrl : ControlPacketData}
    (hc : Canonical hasTlsAuth (.control ctrl)) :
    Packet.parse (Packet.serialize (.control ctrl)) hasTlsAuth = .ok (.control ctrl) := by
  obtain ⟨hh, hop, hmax, hrsid, hack, hshort⟩ := hc
  have hhead := HeaderCodec.parse_of_canonical hh
    (Packet.serializeAcks ctrl.acks ctrl.remoteSessionId ++
      (ctrl.messagePacketId.elim [] (fun id => (toBe32 id).toList) ++ ctrl.payload))
  have hser : Packet.serialize (.control ctrl) = ctrl.header.serialize ++
      (Packet.serializeAcks ctrl.acks ctrl.remoteSessionId ++
        (ctrl.messagePacketId.elim [] (fun id => (toBe32 id).toList) ++ ctrl.payload)) := by
    rw [Packet.serialize, List.append_assoc, List.append_assoc]
  rw [← hser] at hhead
  have hd1 : (Packet.serialize (.control ctrl)).drop ctrl.header.serialize.length = _ :=
    hser ▸ List.drop_left
  generalize Packet.serialize (.control ctrl) = data at hhead hd1 ⊢
  have hacks := parseAckArray_of_serialize hmax hrsid hd1
  have hd2 := drop_add_length hd1
  have hid := parseMessageId_of hack hshort hd2
  have hd3 := drop_add_length hd2
  rw [Packet.parse, hhead, Outcome.ok_bind]
  simp only [hop, Bool.false_eq_true, if_false, Packet.parseControl, hacks, Outcome.ok_bind, hid,
    parsePayload_eq, hd3]
  rfl

/-- Parsing succeeds on exactly the serialized forms of the canonical packets. -/
theorem parse_eq_ok_iff {p : Packet} :
    Packet.parse data hasTlsAuth = .ok p ↔ Canonical hasTlsAuth p ∧ p.serialize = data := by
  constructor
  · intro h
    simp only [Packet.parse, Outcome.bind_eq_ok_iff, Prod.exists] at h
    obtain ⟨header, offset, hhead, h⟩ := h
    obtain ⟨hc, -, hdata⟩ := HeaderCodec.canonical_of_parse hhead
    split at h
    · rename_i hop
      exact canonical_of_parseData hc hop hdata h
    · rename_i hop
      exact canonical_of_parseControl hc (Bool.eq_false_iff.mpr hop) hdata h
  · rintro ⟨hc, rfl⟩
    cases p with
    | control ctrl => exact parse_of_canonical_control hc
    | data d => exact parse_of_canonical_data hc

def Begins (data : Bytes) (opcode : OpCode) : Prop :=
  ∃ first rest, data = first :: rest ∧ OpCode.fromByte first = .ok opcode

theorem Begins.unique {opcode opcode' : OpCode} (h : Begins data opcode) (h' : Begins data opcode') :
    opcode = opcode' := by
  obtain ⟨first, rest, rfl, hop⟩ := h
  obtain ⟨_, _, heq, hop'⟩ := h'
  obtain ⟨rfl, rfl⟩ := List.cons.inj heq
  exact Except.ok.inj (hop.symm.trans hop')

theorem begins_of_parse {p : Packet} (h : Packet.parse data hasTlsAuth = .ok p) : Begins data p.opcode := by
  obtain ⟨hc, rfl⟩ := parse_eq_ok_iff.mp h
  cases p with
  | control ctrl => exact ⟨_, _, rfl, (fromByte_toByte ctrl.header.opcode hc.1.keyId_lt).1⟩
  | data d => exact ⟨_, _, rfl, (fromByte_toByte d.header.opcode hc.1.keyId_lt).1⟩

/-- A packet as a sender builds it. A control packet has a control opcode, a
session id and exactly the tls-auth fields in use; a data packet has a data
opcode and none of these fields. -/
def WellFormed (hasTlsAuth : Bool) : Packet → Prop
  | .control ctrl =>
    ctrl.header.keyId.val < 8 ∧ ctrl.header.opcode.isControl = true ∧
      ctrl.header.sessionId.isSome = true ∧ ctrl.header.hmac.isSome = hasTlsAuth ∧
      ctrl.header.packetId.isSome = hasTlsAuth ∧ ctrl.header.timestamp.isSome = hasTlsAuth ∧
      ctrl.acks.length ≤ 16 ∧ (ctrl.remoteSessionId.isSome = true ↔ ctrl.acks ≠ []) ∧
      (ctrl.messagePacketId.isSome = true ↔ ctrl.header.opcode ≠ .ackV1)
  | .data d =>
    d.header.keyId.val < 8 ∧ d.header.opcode.isData = true ∧ d.header.sessionId = none ∧
      d.header.hmac = none ∧ d.header.packetId = none ∧ d.header.timestamp = none ∧
      (d.peerId.isSome = true ↔ d.header.opcode = .dataV2) ∧ ∀ id ∈ d.peerId, id.toNat < 2 ^ 24

instance (hasTlsAuth : Bool) : (p : Packet) → Decidable (WellFormed hasTlsAuth p)
  | .control _ => inferInstanceAs (Decidable (_ ∧ _))
  | .data d =>
    -- not by trying all numbers
    have : Decidable (∀ id ∈ d.peerId, id.toNat < 2 ^ 24) := Option.decidableForallMem d.peerId
    inferInstanceAs (Decidable (_ ∧ _))

theorem canonical_of_wellFormed {p : Packet} (h : WellFormed hasTlsAuth p) : Canonical hasTlsAuth p := by
  cases p with
  | control ctrl =>
    obtain ⟨hkey, hop, hsid, hmac, hpid, hts, hacks, hrsid, hid⟩ := h
    rw [isControl_eq_not_isData, Bool.not_eq_true'] at hop
    refine ⟨⟨hkey, ?_, ?_, ?_, ?_⟩, hop, hacks, ?_, fun hack => ?_, fun hack hnone => ?_⟩
    · rw [hsid, hop]; rfl
    · rw [hmac, hop, Bool.not_false, Bool.and_true]
    · rw [hpid, hop, Bool.not_false, Bool.and_true]
    · rw [hts, hop, Bool.not_false, Bool.and_true]
    · cases hc : ctrl.acks <;> simp_all
    · rw [← Option.not_isSome_iff_eq_none, hid]
      exact not_not_intro hack
    · rw [← hid, hnone] at hack
      cases hack
  | data d =>
    obtain ⟨hkey, hop, hsid, hmac, hpid, hts, hpeer, hlt⟩ := h
    refine ⟨⟨hkey, ?_, ?_, ?_, ?_⟩, hop, fun h2 => ?_, fun h2 => ?_⟩
    · rw [hsid, hop]; rfl
    · rw [hmac, hop, Bool.not_true, Bool.and_false]; rfl
    · rw [hpid, hop, Bool.not_true, Bool.and_false]; rfl
    · rw [hts, hop, Bool.not_true, Bool.and_false]; rfl
    · obtain ⟨id, hid⟩ := Option.isSome_iff_exists.mp (hpeer.mpr h2)
      exact ⟨id, hid, hlt id hid⟩
    · rw [← Option.not_isSome_iff_eq_none, hpeer]
      exact h2

/-- The codec is exact in both directions: whatever parses serializes back to
the same bytes, and every well-formed packet parses back to itself. -/
theorem packet_codec_exact :
    (∀ (d : Bytes) (hasTlsAuth : Bool) (p : Packet),
      Packet.parse d hasTlsAuth = .ok p → p.serialize = d) ∧
    (∀ (p : Packet) (hasTlsAuth : Bool),
      WellFormed hasTlsAuth p → Packet.parse p.serialize hasTlsAuth = .ok p) :=
  ⟨fun _ _ _ h => (parse_eq_ok_iff.mp h).2,
    fun _ _ h => parse_eq_ok_iff.mpr ⟨canonical_of_wellFormed h, rfl⟩⟩

theorem packet_codec_exact_examples :
    let ctrl : Packet := .control
      { header := ⟨.controlV1, ⟨3⟩, some (zeros 8), some (zeros 32), some 1, some 7⟩
        remoteSessionId := some (zeros 8), acks := [4, 5], messagePacketId := some 6, payload := [22, 3] }
    let data : Packet := .data ⟨⟨.dataV2, ⟨0⟩, none, none, none, none⟩, some 1, [222, 173]⟩
    Packet.parse ctrl.serialize true = .ok ctrl ∧ Packet.parse data.serialize false = .ok data ∧
      data.serialize = [72, 0, 0, 1, 222, 173] ∧
      (∀ p, Packet.parse [72, 0, 0, 1, 222, 173] false = .ok p →
        p.serialize = [72, 0, 0, 1, 222, 173]) :=
  ⟨packet_codec_exact.2 _ _ (by decide), packet_codec_exact.2 _ _ (by decide), by decide,
    fun p h => packet_codec_exact.1 _ false p h⟩

end CoreVpn.Protocol.PacketCodec
