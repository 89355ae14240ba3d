import CoreVpn.Protocol.HeaderCodec

namespace CoreVpn.Protocol.PacketFields

open Lib.Computation Lib.Wire Errors Opcodes Packets HeaderCodec

variable {data : Bytes} {hasTlsAuth : Bool} {offset next : Nat}

theorem parseAcks_eq_ok_iff {count : Nat} {acks : List UInt32} :
    Packet.parseAcks data count offset = .ok (acks, next) ↔
      acks.length = count ∧ next = offset + 4 * count ∧
        data.drop offset = acks.flatMap (fun ack => (toBe32 ack).toList) ++ data.drop next := by
  induction count generalizing offset acks with
  | zero =>
    rw [Packet.parseAcks, Except.ok.injEq, Prod.mk.injEq]
    constructor
    · rintro ⟨rfl, rfl⟩
      exact ⟨rfl, rfl, rfl⟩
    · rintro ⟨hl, rfl, -⟩
      exact ⟨(List.length_eq_zero_iff.mp hl).symm, rfl⟩
  | succ count ih =>
    simp only [Packet.parseAcks, Outcome.bind_eq_ok_iff, field_eq_ok_iff (Nat.succ_pos _)]
    constructor
    · rintro ⟨ack, hack, ⟨acks', next'⟩, hrest, h⟩
      cases h
      obtain ⟨hl, hn, hd⟩ := ih.mp hrest
      refine ⟨by rw [List.length_cons, hl], by omega, ?_⟩
      rw [List.flatMap_cons, toBe32_fromBe32, List.append_assoc, ← hd]
      exact hack
    · rintro ⟨hl, hn, hd⟩
      obtain ⟨ack, acks', rfl⟩ := List.exists_cons_of_length_eq_add_one hl
      rw [List.flatMap_cons, List.append_assoc] at hd
      have hd4 := drop_add hd
      refine ⟨toBe32 ack, by rw [hd, hd4], (acks', next), ?_, ?_⟩
      · exact ih.mpr ⟨Nat.succ.inj hl, by omega, hd4⟩
      · rw [fromBe32_toBe32]
        rfl

theorem length_flatMap_toBe32 (acks : List UInt32) :
    (acks.flatMap fun ack => (toBe32 ack).toList).length = 4 * acks.length := by
  induction acks with
  | nil => rfl
  | cons ack acks ih =>
    rw [List.flatMap_cons, List.length_append, ih, length_toList, List.length_cons]
    omega

theorem length_serializeAcks {acks : List UInt32} {sid : SessionId} (h : acks.isEmpty = false) :
    (Packet.serializeAcks acks (some sid)).length = 1 + 4 * acks.length + 8 := by
  rw [Packet.serializeAcks, h, List.length_cons, List.length_append, length_flatMap_toBe32, if_neg (by simp),
    Option.elim_some, length_toList]
  omega

theorem serializeAcks_of_parse {acks : List UInt32} {rsid : Option SessionId}
    (h : Packet.parseAckArray data offset = .ok (acks, rsid, next)) :
    acks.length ≤ Packet.maxAckCount ∧ rsid.isSome = !acks.isEmpty ∧
      next = offset + (Packet.serializeAcks acks rsid).length ∧
      data.drop offset = Packet.serializeAcks acks rsid ++ data.drop next := by
  simp only [Packet.parseAckArray, Outcome.bind_eq_ok_iff, index_eq_ok_iff] at h
  obtain ⟨-, -, count, hcount, h⟩ := h
  split at h
  · cases h
  rename_i hle
  split at h
  · rename_i hpos
    simp only [Outcome.bind_eq_ok_iff, field_eq_ok_iff (Nat.succ_pos _), parseAcks_eq_ok_iff,
      Prod.exists] at h
    obtain ⟨acks', mid, ⟨hl, hmid, hacks⟩, sid, hsid, h⟩ := h
    cases h
    have hne : acks.isEmpty = false := by
      rw [List.isEmpty_eq_false_iff_exists_mem, ← List.length_pos_iff_exists_mem]
      omega
    refine ⟨by omega, by rw [hne]; rfl, ?_, ?_⟩
    · rw [length_serializeAcks hne]
      omega
    · rw [Packet.serializeAcks, hne, hl, UInt8.ofNat_toNat, hcount, hacks, hsid]
      simp
  · rename_i hpos
    cases h
    have h0 : count = 0 := UInt8.toNat_inj.mp (by simpa using hpos)
    subst h0
    exact ⟨Nat.zero_le _, rfl, rfl, hcount⟩

theorem parseAckArray_of_serialize {acks : List UInt32} {rsid : Option SessionId}
    (hmax : acks.length ≤ Packet.maxAckCount) (hrsid : rsid.isSome = !acks.isEmpty) {rest : Bytes}
    (hd : data.drop offset = Packet.serializeAcks acks rsid ++ rest) :
    Packet.parseAckArray data offset =
      .ok (acks, rsid, offset + (Packet.serializeAcks acks rsid).length) := by
  have hlen : (UInt8.ofNat acks.length).toNat = acks.length :=
    UInt8.toNat_ofNat_of_lt' (lt_of_le_of_lt hmax (by decide))
  have hd1 : data.drop (offset + 1) = (acks.flatMap (fun ack => (toBe32 ack).toList) ++
      if acks.isEmpty then [] else rsid.elim [] (·.toList)) ++ rest := by
    rw [← List.drop_drop, hd]
    rfl
  have hlong := congrArg List.length hd
  simp only [Packet.serializeAcks, List.cons_append, List.length_cons, List.length_drop] at hlong
  have hens : ensure data (offset + 1) = .ok () := ensure_eq_ok_iff.mpr (by omega)
  have hidx : (index data offset : Outcome ProtocolError UInt8) = .ok (UInt8.ofNat acks.length) :=
    index_eq_ok_iff.mpr (by rw [hd1]; exact hd)
  rw [Packet.parseAckArray, hens, Outcome.ok_bind, hidx, Outcome.ok_bind, hlen,
    if_neg (Nat.not_lt.mpr hmax)]
  cases acks with
  | nil =>
    rw [List.isEmpty_nil, Bool.not_true, Option.isSome_eq_false_iff, Option.isNone_iff_eq_none] at hrsid
    subst hrsid
    rfl
  | cons ack acks =>
    rw [List.isEmpty_cons, Bool.not_false] at hrsid
    obtain ⟨sid, rfl⟩ := Option.isSome_iff_exists.mp hrsid
    rw [List.isEmpty_cons, if_neg (by simp), Option.elim_some, List.append_assoc] at hd1
    have hmid : data.drop (offset + 1 + 4 * (ack :: acks).length) = sid.toList ++ rest := by
      rw [← List.drop_drop, hd1, List.drop_left' (length_flatMap_toBe32 _)]
    have hacks : Packet.parseAcks data (ack :: acks).length (offset + 1) =
        .ok (ack :: acks, offset + 1 + 4 * (ack :: acks).length) :=
      parseAcks_eq_ok_iff.mpr ⟨rfl, rfl, by rw [hd1, hmid]⟩
    have hsid : field 8 data (offset + 1 + 4 * (ack :: acks).length) = .ok sid :=
      (field_eq_ok_iff (by decide)).mpr (by rw [hmid, drop_add hmid])
    rw [if_pos (by simp), hacks, Outcome.ok_bind]
    simp only [hsid, Outcome.ok_bind]
    rw [length_serializeAcks rfl, ← Nat.add_assoc, ← Nat.add_assoc]
    rfl

theorem parseMessageId_eq_ok_iff {opcode : OpCode} {id : Option UInt32} :
    Packet.parseMessageId data opcode offset = .ok (id, next) ↔
      (id.isSome ↔ opcode ≠ .ackV1 ∧ offset + 4 ≤ data.length) ∧
        next = offset + (id.elim [] fun id => (toBe32 id).toList).length ∧
        data.drop offset = (id.elim [] fun id => (toBe32 id).toList) ++ data.drop next := by
  unfold Packet.parseMessageId
  split
  · rename_i hcond
    rw [Outcome.bind_eq_ok_iff]
    constructor
    · rintro ⟨v, hv, h⟩
      cases h
      rw [readFixed_eq_ok_iff (by decide)] at hv
      refine ⟨by simp [hcond], rfl, ?_⟩
      rw [Option.elim_some, toBe32_fromBe32]
      exact hv
    · rintro ⟨hid, hnext, hd⟩
      obtain ⟨id, rfl⟩ := Option.isSome_iff_exists.mp (hid.mpr hcond)
      subst hnext
      refine ⟨toBe32 id, (readFixed_eq_ok_iff (by decide)).mpr hd, ?_⟩
      rw [fromBe32_toBe32]
      rfl
  · rename_i hcond
    constructor
    · intro h
      cases h
      exact ⟨by simp [hcond], rfl, rfl⟩
    · rintro ⟨hid, hnext, -⟩
      obtain rfl : id = none := by
        rw [← Option.not_isSome_iff_eq_none, hid]
        exact hcond
      subst hnext
      rfl

theorem parseMessageId_of {opcode : OpCode} {id : Option UInt32} {payload : Bytes}
    (hack : opcode = .ackV1 → id = none) (hshort : opcode ≠ .ackV1 → id = none → payload.length < 4)
    (hd : data.drop offset = (id.elim [] fun id => (toBe32 id).toList) ++ payload) :
    Packet.parseMessageId data opcode offset =
      .ok (id, offset + (id.elim [] fun id => (toBe32 id).toList).length) := by
  have hlen := congrArg List.length hd
  rw [List.length_drop, List.length_append] at hlen
  refine parseMessageId_eq_ok_iff.mpr ⟨?_, rfl, by rw [hd, drop_add_length hd]⟩
  cases id with
  | none =>
    rw [Option.elim_none, List.length_nil] at hlen
    constructor
    · intro h
      cases h
    · rintro ⟨ha, hle⟩
      have := hshort ha rfl
      omega
  | some id =>
    rw [Option.elim_some, length_toList] at hlen
    refine ⟨fun _ => ⟨fun ha => ?_, by omega⟩, fun _ => rfl⟩
    cases hack ha

theorem parsePayload_eq (data : Bytes) (offset : Nat) :
    Packet.parsePayload data offset = .ok (data.drop offset) := by
  unfold Packet.parsePayload
  split
  · rename_i h
    exact slice_to_end (Nat.le_of_lt h)
  · rename_i h
    rw [List.drop_eq_nil_of_le (Nat.le_of_not_lt h)]

theorem parsePeerId_of {opcode : OpCode} {peerId : Option UInt32}
    (hsome : opcode = .dataV2 → ∃ id, peerId = some id ∧ id.toNat < 2 ^ 24)
    (hnone : opcode ≠ .dataV2 → peerId = none) {rest : Bytes}
    (hd : data.drop offset = peerId.elim [] toBe24 ++ rest) :
    Packet.parsePeerId data opcode offset =
      .ok (peerId, offset + (peerId.elim [] toBe24).length) := by
  by_cases h2 : opcode = .dataV2
  · obtain ⟨id, rfl, hid⟩ := hsome h2
    have h0 : data.drop offset = (id >>> 16).toUInt8 :: (id >>> 8).toUInt8 :: id.toUInt8 :: rest := hd
    have h1 : data.drop (offset + 1) = (id >>> 8).toUInt8 :: id.toUInt8 :: rest := by
      rw [← List.drop_drop, h0]; rfl
    have h2' : data.drop (offset + 2) = id.toUInt8 :: rest := by
      rw [← List.drop_drop, h0]; rfl
    have h3 : data.drop (offset + 3) = rest := by
      rw [← List.drop_drop, h0]; rfl
    have hlen := congrArg List.length h0
    simp only [List.length_drop, List.length_cons] at hlen
    have he : ensure data (offset + 3) = .ok () := ensure_eq_ok_iff.mpr (by omega)
    have hi0 : (index data offset : Outcome ProtocolError UInt8) = _ :=
      index_eq_ok_iff.mpr (by rw [h0, h1])
    have hi1 : (index data (offset + 1) : Outcome ProtocolError UInt8) = _ :=
      index_eq_ok_iff.mpr (by rw [h1, h2'])
    have hi2 : (index data (offset + 2) : Outcome ProtocolError UInt8) = _ :=
      index_eq_ok_iff.mpr (by rw [h2', h3])
    rw [Packet.parsePeerId, if_pos h2, he, Outcome.ok_bind, hi0, Outcome.ok_bind, hi1, Outcome.ok_bind,
      hi2, Outcome.ok_bind, fromBe24_toBe24 hid]
    rfl
  · obtain rfl := hnone h2
    rw [Packet.parsePeerId, if_neg h2]
    rfl

theorem of_parsePeerId {opcode : OpCode} {peerId : Option UInt32}
    (h : Packet.parsePeerId data opcode offset = .ok (peerId, next)) :
    (opcode = .dataV2 → ∃ id, peerId = some id ∧ id.toNat < 2 ^ 24) ∧
      (opcode ≠ .dataV2 → peerId = none) ∧ data.drop offset = peerId.elim [] toBe24 ++ data.drop next := by
  unfold Packet.parsePeerId at h
  split at h
  · rename_i h2
    simp only [Outcome.bind_eq_ok_iff, index_eq_ok_iff] at h
    obtain ⟨-, -, a, ha, b, hb, c, hc, h⟩ := h
    cases h
    refine ⟨fun _ => ⟨_, rfl, fromBe24_lt a b c⟩, fun hn => absurd h2 hn, ?_⟩
    rw [Option.elim_some, toBe24_fromBe24, ha, hb, hc]
    rfl
  · rename_i h2
    cases h
    exact ⟨fun h => absurd h h2, fun _ => rfl, rfl⟩

end CoreVpn.Protocol.PacketFields
