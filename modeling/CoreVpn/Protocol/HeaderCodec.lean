import CoreVpn.Protocol.Packets

namespace CoreVpn.Protocol.HeaderCodec

open Lib.Computation Lib.Wire Errors Opcodes Packets

variable {data : Bytes} {hasTlsAuth : Bool} {header : PacketHeader} {offset n : Nat}

theorem ensure_eq_ok_iff {u : Unit} : ensure data n = .ok u ↔ n ≤ data.length := by
  rw [← Nat.not_lt]
  by_cases h : data.length < n <;> simp [ensure, h]

theorem field_eq_ok_iff {v : ByteVec n} (hn : 0 < n) :
    field n data offset = .ok v ↔ data.drop offset = v.toList ++ data.drop (offset + n) := by
  rw [field, Outcome.bind_eq_ok_iff]
  constructor
  · rintro ⟨-, -, hr⟩
    exact (readFixed_eq_ok_iff hn).mp hr
  · intro h
    have hlen := congrArg List.length h
    simp only [List.length_drop, List.length_append, length_toList] at hlen
    exact ⟨(), ensure_eq_ok_iff.mpr (by omega), (readFixed_eq_ok_iff hn).mpr h⟩

/-- The headers that stand for some bytes: a data packet has no control fields,
a control packet has a session id, and the tls-auth fields come together. -/
structure Canonical (hasTlsAuth : Bool) (header : PacketHeader) : Prop where
  keyId_lt : header.keyId.val < 8
  sessionId : header.sessionId.isSome = !header.opcode.isData
  hmac : header.hmac.isSome = (hasTlsAuth && !header.opcode.isData)
  packetId : header.packetId.isSome = (hasTlsAuth && !header.opcode.isData)
  timestamp : header.timestamp.isSome = (hasTlsAuth && !header.opcode.isData)

section ControlFields

variable {opcode : OpCode} {keyId : KeyId}

theorem canonical_of_parseControlFields (hop : opcode.isData = false) (hkey : keyId.val < 8)
    (h : PacketHeader.parseControlFields data opcode keyId hasTlsAuth = .ok (header, offset)) :
    header.opcode = opcode ∧ header.keyId = keyId ∧ Canonical hasTlsAuth header ∧
      offset = 1 + header.serializeFields.length ∧
      data.drop 1 = header.serializeFields ++ data.drop offset := by
  unfold PacketHeader.parseControlFields at h
  simp only [Outcome.bind_eq_ok_iff, field_eq_ok_iff (Nat.succ_pos _)] at h
  obtain ⟨sid, hsid, h⟩ := h
  cases hasTlsAuth with
  | true =>
    simp only [Outcome.bind_eq_ok_iff, field_eq_ok_iff (Nat.succ_pos _), if_true] at h
    obtain ⟨mac, hmac, pid, hpid, ts, hts, h⟩ := h
    cases h
    refine ⟨rfl, rfl, ⟨hkey, ?_, ?_, ?_, ?_⟩, ?_, ?_⟩
    · rw [hop]; rfl
    · rw [hop]; rfl
    · rw [hop]; rfl
    · rw [hop]; rfl
    · simp [PacketHeader.serializeFields]
    · simp only [PacketHeader.serializeFields, Option.elim_some, toBe32_fromBe32, List.append_assoc]
      rw [← hts, ← hpid, ← hmac, ← hsid]
  | false =>
    cases h
    refine ⟨rfl, rfl, ⟨hkey, ?_, rfl, rfl, rfl⟩, ?_, ?_⟩
    · rw [hop]; rfl
    · simp [PacketHeader.serializeFields]
    · simp only [PacketHeader.serializeFields, Option.elim_some, Option.elim_none, List.append_nil]
      exact hsid

theorem parseControlFields_of_canonical (hop : header.opcode.isData = false)
    (hc : Canonical hasTlsAuth header) {rest : Bytes}
    (hd : data.drop 1 = header.serializeFields ++ rest) :
    PacketHeader.parseControlFields data header.opcode header.keyId hasTlsAuth =
      .ok (header, 1 + header.serializeFields.length) := by
  obtain ⟨opcode, keyId, sid, mac, pid, ts⟩ := header
  obtain ⟨-, hsid, hmac, hpid, hts⟩ := hc
  simp only at hop
  simp only [hop, Bool.not_false, Bool.and_true] at hsid hmac hpid hts
  obtain ⟨sid, rfl⟩ := Option.isSome_iff_exists.mp hsid
  cases hasTlsAuth with
  | true =>
    obtain ⟨mac, rfl⟩ := Option.isSome_iff_exists.mp hmac
    obtain ⟨pid, rfl⟩ := Option.isSome_iff_exists.mp hpid
    obtain ⟨ts, rfl⟩ := Option.isSome_iff_exists.mp hts
    simp only [PacketHeader.serializeFields, Option.elim_some, List.append_assoc] at hd
    have h9 : data.drop 9 = _ := drop_add hd
    have h41 : data.drop 41 = _ := drop_add h9
    have h45 : data.drop 45 = _ := drop_add h41
    have h49 : data.drop 49 = _ := drop_add h45
    have hf1 : field 8 data 1 = .ok sid := (field_eq_ok_iff (by decide)).mpr (by rw [hd, h9])
    have hf9 : field 32 data 9 = .ok mac := (field_eq_ok_iff (by decide)).mpr (by rw [h9, h41])
    have hf41 : field 4 data 41 = .ok (toBe32 pid) :=
      (field_eq_ok_iff (by decide)).mpr (by rw [h41, h45])
    have hf45 : field 4 data 45 = .ok (toBe32 ts) :=
      (field_eq_ok_iff (by decide)).mpr (by rw [h45, h49])
    simp [PacketHeader.parseControlFields, hf1, hf9, hf41, hf45, fromBe32_toBe32, pure, Except.pure,
      PacketHeader.serializeFields]
  | false =>
    simp only [Option.isSome_eq_false_iff, Option.isNone_iff_eq_none] at hmac hpid hts
    subst hmac hpid hts
    simp only [PacketHeader.serializeFields, Option.elim_some, Option.elim_none, List.append_nil] at hd
    have h9 : data.drop 9 = _ := drop_add hd
    have hf1 : field 8 data 1 = .ok sid := (field_eq_ok_iff (by decide)).mpr (by rw [hd, h9])
    simp [PacketHeader.parseControlFields, hf1, pure, Except.pure, PacketHeader.serializeFields]

end ControlFields

theorem eq_of_isData (hc : Canonical hasTlsAuth header)
    (hop : header.opcode.isData = true) :
    header = ⟨header.opcode, header.keyId, none, none, none, none⟩ := by
  obtain ⟨opcode, keyId, sid, mac, pid, ts⟩ := header
  obtain ⟨-, hsid, hmac, hpid, hts⟩ := hc
  simp only at hop
  simp only [hop, Bool.not_true, Bool.and_false, Option.isSome_eq_false_iff,
    Option.isNone_iff_eq_none] at hsid hmac hpid hts
  subst hsid hmac hpid hts
  rfl

theorem canonical_of_parse (h : PacketHeader.parse data hasTlsAuth = .ok (header, offset)) :
    Canonical hasTlsAuth header ∧ offset = header.serialize.length ∧
      data = header.serialize ++ data.drop offset := by
  unfold PacketHeader.parse at h
  split at h
  · cases h
  simp only [Outcome.bind_eq_ok_iff, index_eq_ok_iff, List.drop_zero] at h
  obtain ⟨first, hfirst, opcode, hop, h⟩ := h
  have hbyte := toByte_fromByte first hop
  have hlt := fromByte_lt first
  split at h
  · rename_i hd
    cases h
    refine ⟨⟨hlt, by simp [hd], by simp [hd], by simp [hd], by simp [hd]⟩, rfl, ?_⟩
    simpa [PacketHeader.serialize, PacketHeader.serializeFields, hbyte] using hfirst
  · rename_i hd
    obtain ⟨rfl, hkey, hc, hoff, hdrop⟩ :=
      canonical_of_parseControlFields (Bool.eq_false_iff.mpr hd) hlt h
    refine ⟨hc, by rw [hoff, PacketHeader.serialize, List.length_cons, Nat.add_comm], ?_⟩
    rw [PacketHeader.serialize, hkey, hbyte, List.cons_append, ← hdrop]
    exact hfirst

theorem parse_of_canonical (hc : Canonical hasTlsAuth header) (rest : Bytes) :
    PacketHeader.parse (header.serialize ++ rest) hasTlsAuth =
      .ok (header, header.serialize.length) := by
  obtain ⟨hop, hid⟩ := fromByte_toByte header.opcode hc.keyId_lt
  have hfirst : (index (header.serialize ++ rest) 0 : Outcome ProtocolError UInt8) =
      .ok (header.opcode.toByte header.keyId) := rfl
  rw [PacketHeader.parse, if_neg (by simp [PacketHeader.serialize]), hfirst, Outcome.ok_bind, hop,
    Outcome.ok_bind, hid]
  cases hd : header.opcode.isData with
  | true =>
    rw [eq_of_isData hc hd]
    rfl
  | false =>
    rw [if_neg (by simp), parseControlFields_of_canonical hd hc rfl, PacketHeader.serialize,
      List.length_cons, Nat.add_comm]

end CoreVpn.Protocol.HeaderCodec
