import CoreVpn.Protocol.PacketCodec
import CoreVpn.Protocol.Sending

namespace CoreVpn.Protocol.Readback

open Lib.Computation Lib.Wire Errors Opcodes Packets Sessions ProtocolSession Sending

structure Content where
  acks : List UInt32
  messagePacketId : Option UInt32
  payload : Bytes
  deriving DecidableEq

/-- A packet without its tls-auth fields, if the session adds them. -/
def strip (s : ProtocolSession) (packet : Bytes) : Bytes :=
  match s.useTlsAuth, s.tlsAuthKey with
  | true, some _ => packet.take 9 ++ packet.drop 49
  | _, _ => packet

def ParsesTo (data : Bytes) (content : Content) : Prop :=
  ∃ ctrl, Packet.parse data false = .ok (.control ctrl) ∧ ctrl.acks = content.acks ∧
    ctrl.messagePacketId = content.messagePacketId ∧ ctrl.payload = content.payload

/-- The acknowledgments fit the format: at most 16 of them, and if there are
any then the remote session id is known. -/
def Fits (s : ProtocolSession) (acks : List UInt32) : Prop :=
  acks.length ≤ Packet.maxAckCount ∧ (acks = [] ∨ s.remoteSessionId.isSome = true)

instance (s : ProtocolSession) (acks : List UInt32) : Decidable (Fits s acks) :=
  inferInstanceAs (Decidable (_ ∧ _))

variable {P : Primitives} {clock : Clock} {s : ProtocolSession} {opcode : OpCode} {keyId : KeyId}
  {rsid : Option SessionId} {content : Content}

theorem length_header {hasTlsAuth : Bool} {header : PacketHeader} (hop : header.opcode.isData = false)
    (hc : HeaderCodec.Canonical hasTlsAuth header) :
    header.serialize.length = if hasTlsAuth then 49 else 9 := by
  obtain ⟨opcode, keyId, sid, mac, pid, ts⟩ := header
  obtain ⟨-, hsid, hmac, hpid, hts⟩ := hc
  simp only at hop
  simp only [hop, Bool.not_false, Bool.and_true] at hsid hmac hpid hts
  obtain ⟨sid, rfl⟩ := Option.isSome_iff_exists.mp hsid
  cases hasTlsAuth with
  | true =>
    obtain ⟨mac, rfl⟩ := Option.isSome_iff_exists.mp hmac
    obtain ⟨pid, rfl⟩ := Option.isSome_iff_exists.mp hpid
    obtain ⟨ts, rfl⟩ := Option.isSome_iff_exists.mp hts
    simp [PacketHeader.serialize, PacketHeader.serializeFields]
  | false =>
    simp only [Option.isSome_eq_false_iff, Option.isNone_iff_eq_none] at hmac hpid hts
    subst hmac hpid hts
    simp [PacketHeader.serialize, PacketHeader.serializeFields]

theorem canonical_header (hop : opcode.isData = false) (hkey : keyId.val < 8) (sid : SessionId) :
    HeaderCodec.Canonical false ⟨opcode, keyId, some sid, none, none, none⟩ :=
  ⟨hkey, by rw [hop]; rfl, rfl, rfl, rfl⟩

theorem length_serializeAcks_none (acks : List UInt32) :
    (Packet.serializeAcks acks none).length = 1 + 4 * acks.length := by
  rw [Packet.serializeAcks, List.length_cons, List.length_append, PacketFields.length_flatMap_toBe32]
  cases acks <;> simp [Nat.add_comm]

theorem parse_controlPacket (hop : opcode.isData = false) (hkey : keyId.val < 8)
    (hmid : opcode = .ackV1 ↔ content.messagePacketId = none)
    (hrsid : rsid = s.remoteSessionId ∨ content.acks = []) (hfit : Fits s content.acks) :
    Packet.parse (Packet.serialize (.control (controlPacket s opcode keyId rsid content.acks
      content.messagePacketId content.payload))) false =
        .ok (.control (controlPacket s opcode keyId (if content.acks.isEmpty then none else rsid) content.acks
          content.messagePacketId content.payload)) := by
  obtain ⟨acks, mid, payload⟩ := content
  obtain ⟨hmax, hfit⟩ := hfit
  simp only at hmid hrsid hfit
  have hhead := canonical_header hop hkey s.localSessionId
  refine PacketCodec.parse_eq_ok_iff.mpr ⟨⟨hhead, hop, hmax, ?_, hmid.mp, ?_⟩, ?_⟩
  · cases acks with
    | nil => rfl
    | cons ack acks =>
      rw [hrsid.resolve_right (by simp)] at *
      simpa [controlPacket] using hfit
  · exact fun hack hnone => absurd (hmid.mpr hnone) hack
  · cases acks with
    | nil => rfl
    | cons ack acks => rfl

/-- A control packet of a session reads back exactly when its acknowledgments
fit: the parser refuses more than 16, and without a remote session id it takes
the eight bytes behind the acknowledgments for one. -/
theorem parsesTo_iff (hop : opcode.isData = false) (hkey : keyId.val < 8)
    (hmid : opcode = .ackV1 ↔ content.messagePacketId = none) (hrsid : rsid = s.remoteSessionId ∨
      content.acks = []) :
    ParsesTo (Packet.serialize (.control (controlPacket s opcode keyId rsid content.acks
      content.messagePacketId content.payload))) content ↔ Fits s content.acks := by
  have hhead := canonical_header hop hkey s.localSessionId
  constructor
  · obtain ⟨acks, mid, payload⟩ := content
    simp only at hmid hrsid
    rintro ⟨c, hparse, hacks, hid, hpay⟩
    obtain ⟨⟨hc, hcop, hmax, hcrsid, -, -⟩, hser⟩ := PacketCodec.parse_eq_ok_iff.mp hparse
    simp only at hacks hid hpay
    rw [hacks] at hmax hcrsid
    refine ⟨hmax, ?_⟩
    by_contra hno
    obtain ⟨hne, hnone⟩ := not_or.mp hno
    have hr : rsid = none := by
      rw [hrsid.resolve_right hne, ← Option.not_isSome_iff_eq_none]
      exact hnone
    have hempty : acks.isEmpty = false := List.isEmpty_eq_false_iff.mpr hne
    rw [hempty, Bool.not_false] at hcrsid
    obtain ⟨sid, hsid⟩ := Option.isSome_iff_exists.mp hcrsid
    have hlen := congrArg List.length hser
    simp only [Packet.serialize, controlPacket, List.length_append, length_header hcop hc,
      length_header hop hhead, hacks, hsid, hr, PacketFields.length_serializeAcks hempty, hid, hpay,
      length_serializeAcks_none] at hlen
    omega
  · intro hfit
    exact ⟨_, parse_controlPacket hop hkey hmid hrsid hfit, rfl, rfl, rfl⟩

theorem take_append_drop_insert {data inserted : Bytes} (h : 9 ≤ data.length)
    (hins : inserted.length = 40) :
    (data.take 9 ++ inserted ++ data.drop 9).take 9 ++ (data.take 9 ++ inserted ++ data.drop 9).drop 49 =
      data := by
  have htake : (data.take 9).length = 9 := by
    rw [List.length_take]
    omega
  have hfront : (data.take 9 ++ inserted).length = 49 := by
    rw [List.length_append]
    omega
  rw [List.drop_left' hfront, List.append_assoc, List.take_left' htake, List.take_append_drop]

theorem strip_maybeWrap (P : Primitives) (clock : Clock) (s : ProtocolSession) {data : Bytes}
    (h : 9 ≤ data.length) : strip s (maybeWrapTlsAuth P clock data s).1 = data := by
  unfold strip maybeWrapTlsAuth
  split
  · rename_i key huse hkey
    simp only [huse, hkey, Nat.not_lt.mpr h, if_false]
    rw [List.append_assoc (data.take 9)]
    exact take_append_drop_insert h (by simp)
  · rename_i hno
    split
    · rename_i key huse hkey
      exact absurd hkey (hno key huse)
    · rfl

/-- What the session's packets depend on, and no call of the builders changes. -/
structure SameEnds (s t : ProtocolSession) : Prop where
  state : t.state = s.state
  localSessionId : t.localSessionId = s.localSessionId
  remoteSessionId : t.remoteSessionId = s.remoteSessionId
  currentKeyId : t.currentKeyId = s.currentKeyId
  useTlsAuth : t.useTlsAuth = s.useTlsAuth
  tlsAuthKey : t.tlsAuthKey = s.tlsAuthKey

theorem SameEnds.refl (s : ProtocolSession) : SameEnds s s := ⟨rfl, rfl, rfl, rfl, rfl, rfl⟩

theorem SameEnds.trans {s t u : ProtocolSession} (h : SameEnds s t) (h' : SameEnds t u) :
    SameEnds s u :=
  ⟨h'.1.trans h.1, h'.2.trans h.2, h'.3.trans h.3, h'.4.trans h.4, h'.5.trans h.5, h'.6.trans h.6⟩

theorem sameEnds_reliable (s : ProtocolSession) (r : Reliable.ReliableTransport) :
    SameEnds s { s with reliable := r } := ⟨rfl, rfl, rfl, rfl, rfl, rfl⟩

theorem SameEnds.strip_eq {t : ProtocolSession} (h : SameEnds s t) : strip t = strip s := by
  funext packet
  rw [strip, strip, h.useTlsAuth, h.tlsAuthKey]

theorem SameEnds.fits_iff {t : ProtocolSession} (h : SameEnds s t) (acks : List UInt32) :
    Fits t acks ↔ Fits s acks := by
  rw [Fits, Fits, h.remoteSessionId]

theorem maybeWrap_sameEnds (P : Primitives) (clock : Clock) (data : Bytes) (s : ProtocolSession) :
    SameEnds s (maybeWrapTlsAuth P clock data s).2 ∧
      (maybeWrapTlsAuth P clock data s).2.reliable = s.reliable := by
  unfold maybeWrapTlsAuth
  split
  · split
    · exact ⟨SameEnds.refl s, rfl⟩
    · exact ⟨⟨rfl, rfl, rfl, rfl, rfl, rfl⟩, rfl⟩
  · exact ⟨SameEnds.refl s, rfl⟩

/-- The packet, without its tls-auth fields, reads back as what was put in
exactly when the acknowledgments fit. -/
def Readable (s : ProtocolSession) (packet : Bytes) (content : Content) : Prop :=
  ParsesTo (strip s packet) content ↔ Fits s content.acks

theorem SameEnds.readable_iff {t : ProtocolSession} (h : SameEnds s t) (packet : Bytes)
    (content : Content) : Readable t packet content ↔ Readable s packet content := by
  rw [Readable, Readable, h.strip_eq, h.fits_iff]

/-- A control packet of the session goes out as it was built, apart from the
tls-auth fields. -/
theorem emit_eq (P : Primitives) (clock : Clock) (s s₀ : ProtocolSession) (opcode : OpCode) (keyId : KeyId)
    (rsid : Option SessionId) (acks : List UInt32) (mid : Option UInt32) (payload : Bytes)
    (hop : opcode.isData = false) (hkey : keyId.val < 8) :
    ∃ packet t, emit P clock (controlPacket s₀ opcode keyId rsid acks mid payload) s = (.ok packet, t) ∧
      strip s packet = Packet.serialize (.control (controlPacket s₀ opcode keyId rsid acks mid payload)) ∧
      SameEnds s t ∧ t.reliable = s.reliable := by
  obtain ⟨hsame, hrel⟩ := maybeWrap_sameEnds P clock (Packet.serialize (.control (controlPacket s₀ opcode
    keyId rsid acks mid payload))) s
  refine ⟨_, _, rfl, strip_maybeWrap P clock s ?_, hsame, hrel⟩
  simp only [Packet.serialize, controlPacket, List.length_append,
    length_header hop (canonical_header hop hkey s₀.localSessionId)]
  simp only [Bool.false_eq_true, if_false]
  omega

theorem emit_readable (P : Primitives) (clock : Clock) (s : ProtocolSession) (opcode : OpCode)
    (keyId : KeyId) (rsid : Option SessionId) (content : Content) (hop : opcode.isData = false)
    (hkey : keyId.val < 8)
    (hmid : opcode = .ackV1 ↔ content.messagePacketId = none)
    (hrsid : rsid = s.remoteSessionId ∨ content.acks = []) :
    ∃ packet t, emit P clock (controlPacket s opcode keyId rsid content.acks content.messagePacketId
        content.payload) s = (.ok packet, t) ∧ Readable s packet content ∧ SameEnds s t ∧
      t.reliable = s.reliable := by
  obtain ⟨packet, t, hemit, hstrip, hends⟩ := emit_eq P clock s s opcode keyId rsid content.acks
    content.messagePacketId content.payload hop hkey
  refine ⟨packet, t, hemit, ?_, hends⟩
  rw [Readable, hstrip]
  exact parsesTo_iff hop hkey hmid hrsid

end CoreVpn.Protocol.Readback
