import CoreVpn.Protocol.Readback

namespace CoreVpn.Protocol.TlsAuth

open Lib.Computation Lib.Wire Crypto.Ciphers Crypto.Keys Crypto.Errors
open Errors Opcodes Packets Sessions ProtocolSession Sending Readback

def withoutHmac (data : Bytes) : Bytes := data.take 9 ++ data.drop 41

/-- What the HMAC of a packet covers, from the packet without its HMAC field:
the eight bytes of the replay fields come first. -/
def authenticated (rest : Bytes) : Bytes := (rest.drop 9).take 8 ++ rest.take 9 ++ rest.drop 17

def IsControl (data : Bytes) : Prop :=
  ∃ first rest opcode, data = first :: rest ∧ OpCode.fromByte first = .ok opcode ∧ opcode.isControl = true

section Verifying

variable {P : Primitives} {s : ProtocolSession} {key : HmacAuth} {data : Bytes}

theorem withoutHmac_slices (h : 49 ≤ data.length) :
    (data.drop 41).take 8 ++ data.take 9 ++ data.drop 49 = authenticated (withoutHmac data) := by
  have htake : (data.take 9).length = 9 := by
    rw [List.length_take]
    omega
  have hdrop : (withoutHmac data).drop 17 = data.drop 49 := by
    rw [withoutHmac, List.drop_append, htake, List.drop_eq_nil_of_le (by omega), List.nil_append,
      List.drop_drop]
  rw [authenticated, hdrop, withoutHmac, List.drop_left' htake, List.take_left' htake]

/-- The check of a control packet compares the HMAC field with the HMAC of all
the rest under the receiving key. -/
theorem verifyTlsAuth_eq_ok_iff (huse : s.useTlsAuth = true) (hkey : s.tlsAuthKey = some key)
    (hcontrol : IsControl data) :
    s.verifyTlsAuth P data = .ok () ↔ 49 ≤ data.length ∧
      (P.hmac key.rxKey (authenticated (withoutHmac data))).toList = (data.drop 9).take 32 := by
  obtain ⟨first, rest, opcode, hdata, hop, hctl⟩ := hcontrol
  have hne : data.isEmpty = false := by rw [hdata]; rfl
  have hindex : (index data 0 : Outcome ProtocolError UInt8) = .ok first := by rw [hdata]; rfl
  rw [verifyTlsAuth, huse, hkey]
  simp only [hne, hindex, hop, hctl, Outcome.ok_bind, Bool.false_eq_true, if_false, if_true]
  by_cases hlen : data.length < 49
  · simp only [hlen, if_true]
    constructor
    · intro h
      cases h
    · intro h
      omega
  · have hle : 49 ≤ data.length := Nat.le_of_not_lt hlen
    obtain ⟨mac, hhmac, hmac⟩ : ∃ mac, (readFixed 32 data 9 : Outcome ProtocolError _) = .ok mac ∧
        mac.toList = (data.drop 9).take 32 := ⟨_, readFixed_of_le (by omega), rfl⟩
    have hreplay : (slice data 41 49 : Outcome ProtocolError _) = _ :=
      slice_of_le (show 41 ≤ 49 by omega) hle
    have hhead : (slice data 0 9 : Outcome ProtocolError _) = _ :=
      slice_of_le (show 0 ≤ 9 by omega) (by omega)
    have hrest : (slice data 49 data.length : Outcome ProtocolError _) = _ :=
      slice_of_le hle (Nat.le_refl _)
    have hall : (data.drop 49).take (data.length - 49) = data.drop 49 :=
      List.take_of_length_le (by rw [List.length_drop])
    simp only [hlen, if_false, hhmac, hreplay, hhead, hrest, Outcome.ok_bind, hall, List.drop_zero,
      Nat.reduceSub, withoutHmac_slices hle, HmacAuth.verify, hle, true_and]
    rw [← hmac]
    by_cases hverify : P.hmac key.rxKey (authenticated (withoutHmac data)) = mac
    · simp [hverify, Outcome.mapFault]
    · rw [if_neg hverify]
      constructor
      · intro h
        cases h
      · intro h
        exact absurd (Subtype.ext h) hverify

theorem authenticated_injective {x y : Bytes} (hx : 17 ≤ x.length) (hy : 17 ≤ y.length)
    (h : authenticated x = authenticated y) : x = y := by
  have hreplay : ((x.drop 9).take 8).length = ((y.drop 9).take 8).length := by
    rw [List.length_take, List.length_take, List.length_drop, List.length_drop]
    omega
  have hhead : (x.take 9).length = (y.take 9).length := by
    rw [List.length_take, List.length_take]
    omega
  rw [authenticated, authenticated, List.append_assoc, List.append_assoc] at h
  obtain ⟨h8, h⟩ := List.append_inj h hreplay
  obtain ⟨h9, h17⟩ := List.append_inj h hhead
  have hsplit : ∀ z : Bytes, z = z.take 9 ++ ((z.drop 9).take 8 ++ z.drop 17) := fun z => by
    have hz : z.drop 17 = (z.drop 9).drop 8 := by rw [List.drop_drop]
    rw [hz, List.take_append_drop, List.take_append_drop]
  rw [hsplit x, hsplit y, h8, h9, h17]

end Verifying

section Wrapping

variable {P : Primitives} {clock : Clock} {s : ProtocolSession} {key : HmacAuth} {x : Bytes}

def replayFields (clock : Clock) (s : ProtocolSession) : Bytes :=
  (toBe32 s.tlsAuthPacketId).toList ++ (toBe32 clock.unixTime).toList

@[simp] theorem length_replayFields (clock : Clock) (s : ProtocolSession) :
    (replayFields clock s).length = 8 := by
  rw [replayFields, List.length_append, length_toList, length_toList]

theorem maybeWrap_eq (huse : s.useTlsAuth = true) (hkey : s.tlsAuthKey = some key) (h : 9 ≤ x.length) :
    (maybeWrapTlsAuth P clock x s).1 = x.take 9 ++ ((P.hmac key.txKey (replayFields clock s ++ x)).toList ++
      (replayFields clock s ++ x.drop 9)) := by
  rw [maybeWrapTlsAuth, huse, hkey]
  simp only [Nat.not_lt.mpr h, if_false, List.append_assoc]
  rfl

theorem withoutHmac_insert {mac : ByteVec 32} {rest : Bytes} (h : 9 ≤ x.length) :
    withoutHmac (x.take 9 ++ (mac.toList ++ rest)) = x.take 9 ++ rest := by
  have htake : (x.take 9).length = 9 := by
    rw [List.length_take]
    omega
  have hfront : (x.take 9 ++ mac.toList).length = 41 := by
    rw [List.length_append, htake, length_toList]
  rw [withoutHmac, List.take_left' htake, ← List.append_assoc, List.drop_left' hfront]

/-- The two rearrangements meet: the receiver authenticates what the sender did. -/
theorem authenticated_insert {replay : Bytes} (hr : replay.length = 8) (h : 9 ≤ x.length) :
    authenticated (x.take 9 ++ (replay ++ x.drop 9)) = replay ++ x := by
  have htake : (x.take 9).length = 9 := by
    rw [List.length_take]
    omega
  have hfront : (x.take 9 ++ replay).length = 17 := by
    rw [List.length_append, htake, hr]
  rw [authenticated, List.drop_left' htake, List.take_left' htake, List.take_left' hr,
    ← List.append_assoc (x.take 9), List.drop_left' hfront, List.append_assoc, List.take_append_drop]

theorem isControl_insert {rest : Bytes} (hx : IsControl x) : IsControl (x.take 9 ++ rest) := by
  obtain ⟨first, tail, opcode, rfl, hop, hctl⟩ := hx
  exact ⟨first, _, opcode, rfl, hop, hctl⟩

theorem verify_maybeWrap {receiver : ProtocolSession} {peerKey : HmacAuth} (huse : s.useTlsAuth = true)
    (hkey : s.tlsAuthKey = some key) (hruse : receiver.useTlsAuth = true)
    (hrkey : receiver.tlsAuthKey = some peerKey) (hmirror : peerKey.rxKey = key.txKey)
    (h : 9 ≤ x.length) (hx : IsControl x) :
    receiver.verifyTlsAuth P (maybeWrapTlsAuth P clock x s).1 = .ok () := by
  have htake : (x.take 9).length = 9 := by
    rw [List.length_take]
    omega
  rw [maybeWrap_eq huse hkey h, verifyTlsAuth_eq_ok_iff hruse hrkey (isControl_insert hx),
    withoutHmac_insert h, authenticated_insert (length_replayFields clock s) h, hmirror]
  constructor
  · simp only [List.length_append, htake, length_toList, length_replayFields]
    omega
  · rw [List.drop_left' htake, List.take_left' (length_toList _)]

end Wrapping

section Parsing

def bare (ctrl : ControlPacketData) : ControlPacketData :=
  { ctrl with header := { ctrl.header with hmac := none, packetId := none, timestamp := none } }

def withFields (ctrl : ControlPacketData) (mac : ByteVec 32) (pid ts : UInt32) : ControlPacketData :=
  { ctrl with header := { ctrl.header with hmac := some mac, packetId := some pid, timestamp := some ts } }

def withoutTlsAuth : Packet → Packet
  | .control ctrl => .control (bare ctrl)
  | .data d => .data d

variable {ctrl : ControlPacketData} {mac : ByteVec 32} {pid ts : UInt32} {x : Bytes} {p : Packet}

theorem canonical_withFields (h : PacketCodec.Canonical false (.control ctrl)) :
    PacketCodec.Canonical true (.control (withFields ctrl mac pid ts)) := by
  obtain ⟨hhead, hop, hrest⟩ := h
  have hsome : ∀ α (a : α), (some a).isSome = (true && !ctrl.header.opcode.isData) := fun _ _ => by
    rw [hop]
    rfl
  exact ⟨⟨hhead.keyId_lt, hhead.sessionId, hsome _ _, hsome _ _, hsome _ _⟩, hop, hrest⟩

theorem canonical_bare (h : PacketCodec.Canonical true (.control ctrl)) :
    PacketCodec.Canonical false (.control (bare ctrl)) := by
  obtain ⟨hhead, hop, hrest⟩ := h
  exact ⟨⟨hhead.keyId_lt, hhead.sessionId, rfl, rfl, rfl⟩, hop, hrest⟩

theorem exists_eq_withFields (h : PacketCodec.Canonical true (.control ctrl)) :
    ∃ mac pid ts, ctrl = withFields (bare ctrl) mac pid ts := by
  obtain ⟨⟨opcode, keyId, sid, mac, pid, ts⟩, rsid, acks, mid, payload⟩ := ctrl
  obtain ⟨⟨-, -, hmac, hpid, hts⟩, hop, -⟩ := h
  simp only [show opcode.isData = false from hop, Bool.not_false, Bool.and_true] at hmac hpid hts
  obtain ⟨mac, rfl⟩ := Option.isSome_iff_exists.mp hmac
  obtain ⟨pid, rfl⟩ := Option.isSome_iff_exists.mp hpid
  obtain ⟨ts, rfl⟩ := Option.isSome_iff_exists.mp hts
  exact ⟨mac, pid, ts, rfl⟩

def body (ctrl : ControlPacketData) : Bytes :=
  Packet.serializeAcks ctrl.acks ctrl.remoteSessionId ++
    (ctrl.messagePacketId.elim [] (fun id => (toBe32 id).toList) ++ ctrl.payload)

theorem serialize_control (ctrl : ControlPacketData) :
    Packet.serialize (.control ctrl) = ctrl.header.serialize ++ body ctrl := by
  rw [Packet.serialize, body, List.append_assoc, List.append_assoc]

theorem header_withFields (h : HeaderCodec.Canonical false ctrl.header) :
    (withFields ctrl mac pid ts).header.serialize =
      ctrl.header.serialize ++ (mac.toList ++ ((toBe32 pid).toList ++ (toBe32 ts).toList)) := by
  obtain ⟨⟨opcode, keyId, sid, hmac, packetId, timestamp⟩, rsid, acks, mid, payload⟩ := ctrl
  obtain ⟨-, -, hm, hp, ht⟩ := h
  simp only [Bool.false_and, Option.isSome_eq_false_iff, Option.isNone_iff_eq_none] at hm hp ht
  subst hm hp ht
  simp [withFields, PacketHeader.serialize, PacketHeader.serializeFields]

theorem bare_withFields (h : HeaderCodec.Canonical false ctrl.header) :
    bare (withFields ctrl mac pid ts) = ctrl := by
  obtain ⟨⟨opcode, keyId, sid, hmac, packetId, timestamp⟩, rsid, acks, mid, payload⟩ := ctrl
  obtain ⟨-, -, hm, hp, ht⟩ := h
  simp only [Bool.false_and, Option.isSome_eq_false_iff, Option.isNone_iff_eq_none] at hm hp ht
  subst hm hp ht
  rfl

theorem serialize_withFields (h : PacketCodec.Canonical false (.control ctrl)) :
    Packet.serialize (.control (withFields ctrl mac pid ts)) =
      (Packet.serialize (.control ctrl)).take 9 ++ (mac.toList ++ ((toBe32 pid).toList ++ (toBe32 ts).toList ++
        (Packet.serialize (.control ctrl)).drop 9)) := by
  have hlen : ctrl.header.serialize.length = 9 := length_header h.2.1 h.1
  have hbody : body (withFields ctrl mac pid ts) = body ctrl := rfl
  rw [serialize_control, serialize_control, List.take_left' hlen, List.drop_left' hlen,
    header_withFields h.1, hbody, List.append_assoc, List.append_assoc]

theorem isControl_of_serialize {hasTlsAuth : Bool} (hc : PacketCodec.Canonical hasTlsAuth p)
    (h : IsControl p.serialize) : ∃ ctrl, p = .control ctrl := by
  cases p with
  | control ctrl => exact ⟨ctrl, rfl⟩
  | data d =>
    obtain ⟨hhead, hdata, -⟩ := hc
    obtain ⟨first, rest, opcode, hser, hop, hctl⟩ := h
    rw [Packet.serialize, PacketHeader.serialize, List.cons_append, List.cons_append] at hser
    obtain ⟨rfl, -⟩ := List.cons.inj hser
    rw [(fromByte_toByte _ hhead.keyId_lt).1, Except.ok.injEq] at hop
    rw [isControl_eq_not_isData, ← hop, hdata] at hctl
    cases hctl

/-- Inserting the tls-auth fields into a control packet adds them to what the
parser reads, and changes nothing else. -/
theorem parse_insert_iff (h : 9 ≤ x.length) (hx : IsControl x) :
    Packet.parse (x.take 9 ++ (mac.toList ++ ((toBe32 pid).toList ++ (toBe32 ts).toList ++ x.drop 9))) true =
      .ok p ↔ ∃ ctrl, Packet.parse x false = .ok (.control ctrl) ∧ p = .control (withFields ctrl mac pid ts) := by
  simp only [PacketCodec.parse_eq_ok_iff]
  constructor
  · rintro ⟨hc, hser⟩
    obtain ⟨ctrl, rfl⟩ := isControl_of_serialize hc (hser ▸ isControl_insert hx)
    obtain ⟨mac', pid', ts', hctrl⟩ := exists_eq_withFields hc
    have hbare := canonical_bare hc
    have hlong : 9 ≤ (Packet.serialize (.control (bare ctrl))).length := by
      rw [serialize_control, List.length_append]
      exact Nat.le_add_right_of_le (Nat.le_of_eq (length_header hbare.2.1 hbare.1).symm)
    rw [hctrl, serialize_withFields hbare] at hser
    obtain ⟨hhead, hser⟩ := List.append_inj hser (by rw [List.length_take, List.length_take]; omega)
    obtain ⟨hmac, hser⟩ := List.append_inj hser (by rw [length_toList, length_toList])
    obtain ⟨hreplay, hrest⟩ := List.append_inj hser (by simp)
    obtain ⟨hpid, hts⟩ := List.append_inj hreplay (by rw [length_toList, length_toList])
    refine ⟨bare ctrl, ⟨hbare, ?_⟩, ?_⟩
    · rw [← List.take_append_drop 9 (Packet.serialize _), hhead, hrest, List.take_append_drop]
    · have hpid' : pid' = pid := by
        rw [← fromBe32_toBe32 pid', ← fromBe32_toBe32 pid, Subtype.ext hpid]
      have hts' : ts' = ts := by
        rw [← fromBe32_toBe32 ts', ← fromBe32_toBe32 ts, Subtype.ext hts]
      rw [hctrl, show mac' = mac from Subtype.ext hmac, hpid', hts']
      rfl
  · rintro ⟨ctrl, ⟨hc, rfl⟩, rfl⟩
    exact ⟨canonical_withFields hc, serialize_withFields hc⟩

end Parsing

section Agreement

/-- The key directions of the two ends fit each other. -/
def Matching (serverDirection clientDirection : Option UInt8) : Prop :=
  (serverDirection = none ∨ serverDirection = some 0) ∧ (clientDirection = none ∨ clientDirection = some 1) ∨
    serverDirection = some 1 ∧ clientDirection = some 0

variable {serverDirection clientDirection : Option UInt8}

theorem fromTaKey_mirrored (taKey : ByteVec 256) (h : Matching serverDirection clientDirection) :
    ∃ server client, HmacAuth.fromTaKey taKey true serverDirection = .ok server ∧
      HmacAuth.fromTaKey taKey false clientDirection = .ok client ∧
      client.rxKey = server.txKey ∧ server.rxKey = client.txKey := by
  have hread : ∀ offset, offset + 32 ≤ 256 →
      ∃ key, (readFixed 32 taKey.toList offset : Outcome CryptoError (ByteVec 32)) = .ok key :=
    fun offset hle => ⟨_, readFixed_of_le (by rw [length_toList]; exact hle)⟩
  obtain ⟨first, hfirst⟩ := hread 64 (by decide)
  obtain ⟨second, hsecond⟩ := hread 192 (by decide)
  simp only [HmacAuth.fromTaKey, hfirst, hsecond, Outcome.ok_bind]
  rcases h with ⟨rfl | rfl, rfl | rfl⟩ | ⟨rfl, rfl⟩ <;> exact ⟨_, _, rfl, rfl, rfl, rfl⟩

theorem parse_maybeWrap {P : Primitives} {clock : Clock} {s : ProtocolSession} {key : HmacAuth} {x : Bytes}
    (huse : s.useTlsAuth = true) (hkey : s.tlsAuthKey = some key) (h : 9 ≤ x.length) (hx : IsControl x) :
    (Packet.parse (maybeWrapTlsAuth P clock x s).1 true).toOption.map withoutTlsAuth =
      (Packet.parse x false).toOption := by
  rw [maybeWrap_eq huse hkey h, replayFields]
  generalize P.hmac key.txKey _ = mac
  generalize s.tlsAuthPacketId = pid
  generalize clock.unixTime = ts
  cases hparse : Packet.parse x false with
  | ok q =>
    obtain ⟨hc, hser⟩ := PacketCodec.parse_eq_ok_iff.mp hparse
    obtain ⟨ctrl, rfl⟩ := isControl_of_serialize hc (hser ▸ hx)
    rw [(parse_insert_iff h hx).mpr ⟨ctrl, hparse, rfl⟩]
    exact congrArg (fun c => some (Packet.control c)) (bare_withFields hc.1)
  | error e =>
    cases hwrapped : Packet.parse
        (x.take 9 ++ (mac.toList ++ ((toBe32 pid).toList ++ (toBe32 ts).toList ++ x.drop 9))) true with
    | ok q =>
      obtain ⟨ctrl, hctrl, -⟩ := (parse_insert_iff h hx).mp hwrapped
      rw [hparse] at hctrl
      cases hctrl
    | error e' => rfl

/-- Wrapping and checking agree: what one end wraps passes the check of the other
and reads as it did before, and the check covers every byte but the HMAC itself. -/
theorem tls_auth_agrees (P : Primitives) (taKey : ByteVec 256)
    (h : Matching serverDirection clientDirection) :
    ∃ server client, HmacAuth.fromTaKey taKey true serverDirection = .ok server ∧
      HmacAuth.fromTaKey taKey false clientDirection = .ok client ∧
      (∀ key peerKey, (key = server ∧ peerKey = client ∨ key = client ∧ peerKey = server) →
        ∀ (clock : Clock) (sender receiver : ProtocolSession) (x : Bytes), 9 ≤ x.length → IsControl x →
          let wrapped := (maybeWrapTlsAuth P clock x (sender.setTlsAuth key)).1
          (receiver.setTlsAuth peerKey).verifyTlsAuth P wrapped = .ok () ∧
            (Packet.parse wrapped true).toOption.map withoutTlsAuth = (Packet.parse x false).toOption) ∧
      (∀ (receiver : ProtocolSession) (key : HmacAuth) (data : Bytes), 49 ≤ data.length → IsControl data →
        ((receiver.setTlsAuth key).verifyTlsAuth P data = .ok () ↔
          (P.hmac key.rxKey (authenticated (withoutHmac data))).toList = (data.drop 9).take 32)) ∧
      ∀ data data' : Bytes, 49 ≤ data.length → 49 ≤ data'.length →
        authenticated (withoutHmac data) = authenticated (withoutHmac data') →
        withoutHmac data = withoutHmac data' := by
  obtain ⟨server, client, hserver, hclient, hrx, htx⟩ := fromTaKey_mirrored taKey h
  refine ⟨server, client, hserver, hclient, ?_, ?_, ?_⟩
  · intro key peerKey hends clock sender receiver x hlong hx
    have hmirror : peerKey.rxKey = key.txKey := by
      rcases hends with ⟨rfl, rfl⟩ | ⟨rfl, rfl⟩
      · exact hrx
      · exact htx
    exact ⟨verify_maybeWrap rfl rfl rfl rfl hmirror hlong hx, parse_maybeWrap rfl rfl hlong hx⟩
  · intro receiver key data hlong hdata
    rw [verifyTlsAuth_eq_ok_iff rfl rfl hdata]
    exact and_iff_right hlong
  · intro data data' hlong hlong' heq
    have hlen : ∀ d : Bytes, 49 ≤ d.length → 17 ≤ (withoutHmac d).length := fun d hd => by
      rw [withoutHmac, List.length_append, List.length_take, List.length_drop]
      omega
    exact authenticated_injective (hlen data hlong) (hlen data' hlong') heq

theorem tls_auth_agrees_hard_reset :
    let P := { Primitives.single [] with hmac := fun key data => ⟨(key.toList ++ data).reverse.take 32, by simp⟩ }
    let x : Bytes := [56, 1, 2, 3, 4, 5, 6, 7, 8, 0, 0, 0, 0, 0]
    let fresh := ProtocolSession.newClient .aes256Gcm (zeros 8) 0
    ∃ server client, HmacAuth.fromTaKey (zeros 256) true none = .ok server ∧
      HmacAuth.fromTaKey (zeros 256) false (some 1) = .ok client ∧
      (fresh.setTlsAuth server).verifyTlsAuth P
        (maybeWrapTlsAuth P ⟨0, 7⟩ x (fresh.setTlsAuth client)).1 = .ok () := by
  intro P x fresh
  obtain ⟨server, client, hserver, hclient, hwrap, -⟩ :=
    tls_auth_agrees P (zeros 256) (show Matching none (some 1) from .inl ⟨.inl rfl, .inr rfl⟩)
  refine ⟨server, client, hserver, hclient, ?_⟩
  exact (hwrap client server (.inr ⟨rfl, rfl⟩) ⟨0, 7⟩ fresh fresh x (by decide)
    ⟨56, _, .hardResetClientV2, rfl, rfl, rfl⟩).1

end Agreement

end CoreVpn.Protocol.TlsAuth
