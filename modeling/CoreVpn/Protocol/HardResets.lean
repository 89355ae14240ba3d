import CoreVpn.Protocol.Processing
import CoreVpn.Protocol.SessionRuns

namespace CoreVpn.Protocol.HardResets

open Lib.Computation Lib.Wire Lib.Machine Errors Opcodes Packets Sessions ProtocolSession Sending
open Receive Readback Builders SessionFrames Processing PacketCodec SessionRuns

variable {P : Primitives} {clock : Clock} {s t : ProtocolSession} {data packet : Bytes} {opcode : OpCode}
  {id : SessionId} {ctrl : ControlPacketData} {result : ProcessedPacket}

section Announcements

def Announces (data : Bytes) (opcode : OpCode) (id : SessionId) : Prop :=
  ∃ keyId : KeyId, keyId.val < 8 ∧ data.take 9 = opcode.toByte keyId :: id.toList

theorem Announces.begins (h : Announces data opcode id) : Begins data opcode := by
  obtain ⟨keyId, hkey, htake⟩ := h
  cases data with
  | nil => cases htake
  | cons first rest =>
    obtain ⟨rfl, -⟩ := List.cons.inj htake
    exact ⟨_, rest, rfl, (fromByte_toByte opcode hkey).1⟩

theorem take_strip (s : ProtocolSession) (packet : Bytes) : (strip s packet).take 9 = packet.take 9 := by
  unfold strip
  split
  · by_cases hlen : 9 ≤ packet.length
    · rw [List.take_left' (List.length_take_of_le hlen)]
    · rw [List.drop_eq_nil_of_le (by omega), List.append_nil, List.take_take, Nat.min_self]
  · rfl

theorem take_serialize (h : ctrl.header.sessionId = some id) :
    (Packet.serialize (.control ctrl)).take 9 = ctrl.header.opcode.toByte ctrl.header.keyId :: id.toList := by
  simp only [Packet.serialize, PacketHeader.serialize, PacketHeader.serializeFields, h, Option.elim_some,
    List.cons_append, List.append_assoc, List.take_succ_cons]
  rw [List.take_left' (length_toList id)]

theorem announces_of_strip {keyId : KeyId} {rsid : Option SessionId} {acks : List UInt32} {mid : Option UInt32}
    {payload : Bytes} (hkey : keyId.val < 8) (h : strip t packet =
      Packet.serialize (.control (controlPacket s opcode keyId rsid acks mid payload))) :
    Announces packet opcode s.localSessionId := by
  refine ⟨keyId, hkey, ?_⟩
  rw [← take_strip t packet, h]
  exact take_serialize rfl

theorem announces_createHardResetClient (h : createHardResetClient P clock s = (.ok packet, t)) :
    Announces packet .hardResetClientV2 s.localSessionId := by
  by_cases hfull : WindowFull s
  · rw [createHardResetClient_full hfull] at h
    cases h
  · obtain ⟨packet', u, hemit, hstrip, -⟩ := emit_eq P clock { s with
      reliable := enqueue clock.now [] s.reliable } s .hardResetClientV2 ⟨0⟩ none [] (some s.reliable.nextSendId)
      [] rfl (by decide)
    rw [createHardResetClient_room hfull] at h
    cases hemit.symm.trans h
    exact announces_of_strip (by decide) hstrip

theorem announces_createHardResetResponse (h : createHardResetResponse P clock s = (.ok packet, t)) :
    Announces packet .hardResetServerV2 s.localSessionId :=
  announces_of_strip (by decide) (createReliable_ok rfl (by decide) (fun _ => rfl) (by decide) h).1

theorem Announces.sessionId {hasTlsAuth : Bool} (h : Announces data opcode id)
    (hparse : Packet.parse data hasTlsAuth = .ok (.control ctrl)) : ctrl.header.sessionId = some id := by
  obtain ⟨hc, rfl⟩ := parse_eq_ok_iff.mp hparse
  have hsome : ctrl.header.sessionId.isSome = true := by
    rw [hc.1.sessionId, hc.2.1]
    rfl
  obtain ⟨sid, hsid⟩ := Option.isSome_iff_exists.mp hsome
  obtain ⟨keyId, -, htake⟩ := h
  rw [take_serialize hsid] at htake
  rw [hsid, Subtype.ext (List.cons.inj htake).2]

end Announcements

section Ids

structure SameIds (s t : ProtocolSession) : Prop where
  localSessionId : t.localSessionId = s.localSessionId
  remoteSessionId : t.remoteSessionId = s.remoteSessionId

instance : IsPreorder ProtocolSession SameIds where
  refl _ := ⟨rfl, rfl⟩
  trans _ _ _ h h' := ⟨h'.1.trans h.1, h'.2.trans h.2⟩

theorem continues_sameIds : Continues SameIds where
  reliable _ _ _ := ⟨rfl, rfl⟩
  tlsReassembler _ _ _ := ⟨rfl, rfl⟩
  rekeying _ := ⟨rfl, rfl⟩
  replayWindow _ _ := ⟨rfl, rfl⟩
  lastActivity _ _ := ⟨rfl, rfl⟩
  dataChannels _ _ := ⟨rfl, rfl⟩

theorem sends_sameIds : Sends SameIds where
  reliable _ _ _ := ⟨rfl, rfl⟩
  tlsAuthPacketId _ _ := ⟨rfl, rfl⟩

structure Learned (id : SessionId) (s t : ProtocolSession) : Prop where
  localSessionId : t.localSessionId = s.localSessionId
  remoteSessionId : t.remoteSessionId = some id

theorem Learned.before {u : ProtocolSession} (h : Learned id t u) (hs : SameIds s t) : Learned id s u :=
  ⟨h.localSessionId.trans hs.localSessionId, h.remoteSessionId⟩

theorem Learned.after {u : ProtocolSession} (h : Learned id s t) (ht : SameIds t u) : Learned id s u :=
  ⟨ht.localSessionId.trans h.localSessionId, ht.remoteSessionId.trans h.remoteSessionId⟩

theorem learned_accept (h : acceptClientId (some id) s = (.ok (), t)) : Learned id s t := by
  unfold acceptClientId at h
  dsimp only at h
  by_cases hzero : id = zeros 8
  · rw [if_pos hzero] at h
    cases h
  · rw [if_neg hzero] at h
    cases h
    exact ⟨rfl, rfl⟩

theorem frames_afterId (mid : Option UInt32) {p : Program ProtocolSession ProtocolError ProcessedPacket}
    (hp : Frames SameIds p) : Frames SameIds
      (do acknowledge mid; Lib.Computation.modify fun s => { s with state := .tlsHandshake }; p) := by
  refine frames_bind (frames_acknowledge continues_sameIds.reliable mid) fun _ => ?_
  exact frames_bind (frames_modify fun _ => ⟨rfl, rfl⟩) fun _ => hp

theorem learned_processOpcode (hop : ctrl.header.opcode ∈ [OpCode.hardResetClientV2, .hardResetServerV2])
    (hid : ctrl.header.sessionId = some id) (h : processOpcode ctrl s = (.ok result, t)) : Learned id s t := by
  simp only [List.mem_cons, List.not_mem_nil, or_false] at hop
  cases hop with
  | inl hclient =>
    rw [processOpcode, hclient, hid] at h
    obtain ⟨_, u, haccept, h⟩ := bind_eq_ok h
    have hrest := frames_afterId ctrl.messagePacketId (frames_bind frames_get fun self : ProtocolSession =>
      frames_pure (.hardReset self.localSessionId)) u
    rw [h] at hrest
    exact (learned_accept haccept).after hrest
  | inr hserver =>
    rw [processOpcode, hserver, hid] at h
    obtain ⟨_, u, haccept, h⟩ := bind_eq_ok h
    cases haccept
    have hrest := frames_afterId ctrl.messagePacketId (frames_pure .hardResetAck)
      (acceptServerId (some id) s)
    rw [h] at hrest
    have hlearned : Learned id s (acceptServerId (some id) s) := ⟨rfl, rfl⟩
    exact hlearned.after hrest

theorem learned_processPacket (hop : opcode ∈ [OpCode.hardResetClientV2, .hardResetServerV2])
    (hann : Announces data opcode id) (h : processPacket P clock data s = (.ok result, t)) : Learned id s t := by
  cases hverify : s.verifyTlsAuth P data with
  | error e =>
    rw [processPacket_of_verify_error hverify] at h
    cases h
  | ok _ =>
    cases hparse : Packet.parse data s.useTlsAuth with
    | error e =>
      rw [processPacket_of_parse_error hverify hparse] at h
      cases h
    | ok packet =>
      have hopcode : packet.opcode = opcode := (begins_of_parse hparse).unique hann.begins
      cases packet with
      | data packet =>
        have hdata : packet.header.opcode.isData = true := (parse_eq_ok_iff.mp hparse).1.2.1
        simp only [List.mem_cons, List.not_mem_nil, or_false] at hop
        rw [show packet.header.opcode = opcode from hopcode] at hdata
        obtain rfl | rfl := hop <;> cases hdata
      | control ctrl =>
        rw [processPacket_control hverify hparse] at h
        obtain ⟨_, u, hcheck, h⟩ := bind_eq_ok h
        obtain ⟨_, v, hacks, h⟩ := bind_eq_ok h
        have hchecked := frames_checkReplay continues_sameIds.replayWindow ctrl.header.packetId (noted clock s)
        rw [hcheck] at hchecked
        have hacked : SameIds u v := by
          cases hacks
          split <;> exact ⟨rfl, rfl⟩
        have hcode : ctrl.header.opcode = opcode := hopcode
        have hlearned := learned_processOpcode (hcode ▸ hop) (hann.sessionId hparse) h
        have hnoted : SameIds s (noted clock s) := ⟨rfl, rfl⟩
        exact hlearned.before (trans_of SameIds (trans_of SameIds hnoted hchecked) hacked)

end Ids

section Runs

/-- The calls after which the ids are what they were. -/
def KeepsIds : Call → Prop
  | .session (.processPacket _ data) => ∀ opcode, Begins data opcode → opcode.isHardReset = false
  | .setRemoteSessionId _ => False
  | _ => True

theorem sameIds_step (P : Primitives) (s : ProtocolSession) {call : Call} (h : KeepsIds call) :
    SameIds s (step P s call).2 := by
  cases call with
  | session call =>
    refine Traffic.rel_step sends_sameIds P s fun clock data hcall => ?_
    subst hcall
    exact continues_sameIds.processPacket P clock h s
  | setRemoteSessionId id => exact h.elim
  | installKeys material isServer => exact frames_installKeys continues_sameIds.dataChannels material isServer s
  | encryptData data =>
    rw [step, Traffic.handOut_snd]
    exact frames_encryptData P continues_sameIds.dataChannels data s
  | setState now state => exact ⟨rfl, rfl⟩
  | setTlsAuth key => exact ⟨rfl, rfl⟩
  | setCipherSuite suite => exact ⟨rfl, rfl⟩
  | rotateKey => exact ⟨rfl, rfl⟩

/-- A session some calls later, whose ids are still the same. -/
structure Later (P : Primitives) (s t : ProtocolSession) : Prop where
  run : ∃ calls, exec (step P) s calls = t
  sameIds : SameIds s t

theorem Later.limits (h : Later P s t) (hs : Limits s) : Limits t := by
  obtain ⟨calls, rfl⟩ := h.run
  exact exec_of_step (step_limits P) hs calls

theorem later_exec {calls : List Call} (h : ∀ call ∈ calls, KeepsIds call) :
    Later P s (exec (step P) s calls) where
  run := ⟨calls, rfl⟩
  sameIds := rel_exec (fun s _ => sameIds_step P s) h s

end Runs

end CoreVpn.Protocol.HardResets
