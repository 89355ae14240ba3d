import CoreVpn.Protocol.SessionFrames

namespace CoreVpn.Protocol.Processing

open Lib.Computation Lib.Wire Crypto.Replay Errors Opcodes Packets Sessions ProtocolSession Receive SessionFrames

variable {P : Primitives} {clock : Clock} {s : ProtocolSession} {data : Bytes}

/-- The session as every packet finds it: the time of the packet is noted
before anything is checked. -/
def noted (clock : Clock) (s : ProtocolSession) : ProtocolSession := { s with lastActivity := clock.now }

theorem processPacket_of_verify_error {e : Fault ProtocolError} (h : s.verifyTlsAuth P data = .error e) :
    processPacket P clock data s = (.error e, noted clock s) :=
  bind_error (p := lift ((noted clock s).verifyTlsAuth P data)) (congrArg (·, noted clock s) h)

theorem processPacket_of_parse_error {e : Fault ProtocolError} (h : s.verifyTlsAuth P data = .ok ())
    (hparse : Packet.parse data s.useTlsAuth = .error e) :
    processPacket P clock data s = (.error e, noted clock s) := by
  refine (bind_ok (p := lift ((noted clock s).verifyTlsAuth P data)) (congrArg (·, noted clock s) h)).trans ?_
  exact bind_error (congrArg (·, noted clock s) hparse)

theorem processPacket_control {ctrl : ControlPacketData} (h : s.verifyTlsAuth P data = .ok ())
    (hparse : Packet.parse data s.useTlsAuth = .ok (.control ctrl)) :
    processPacket P clock data s = processControlPacket P clock ctrl (noted clock s) := by
  refine (bind_ok (p := lift ((noted clock s).verifyTlsAuth P data)) (congrArg (·, noted clock s) h)).trans ?_
  exact bind_ok (congrArg (·, noted clock s) hparse)

theorem processPacket_data {packet : DataPacketData} (h : s.verifyTlsAuth P data = .ok ())
    (hparse : Packet.parse data s.useTlsAuth = .ok (.data packet)) :
    processPacket P clock data s = processDataPacket P packet (noted clock s) := by
  refine (bind_ok (p := lift ((noted clock s).verifyTlsAuth P data)) (congrArg (·, noted clock s) h)).trans ?_
  exact bind_ok (congrArg (·, noted clock s) hparse)

section Plain

variable {ctrl : ControlPacketData}

theorem checkReplay_off {packetId : Option UInt32} (h : s.useTlsAuth = false) :
    checkReplay packetId s = (.ok (), s) := by
  simp only [checkReplay, bind_apply, get_apply, h]
  rfl

def acked (P : Primitives) (clock : Clock) (ctrl : ControlPacketData) (s : ProtocolSession) : ProtocolSession :=
  if ctrl.acks.isEmpty then s else { s with reliable := s.reliable.processAcks P.time clock.now ctrl.acks }

theorem verifyTlsAuth_off (h : s.useTlsAuth = false) : s.verifyTlsAuth P data = .ok () := by
  rw [verifyTlsAuth, h]
  rfl

theorem processPacket_plain (hs : s.useTlsAuth = false) (hparse : Packet.parse data false = .ok (.control ctrl)) :
    processPacket P clock data s = processOpcode ctrl (acked P clock ctrl (noted clock s)) := by
  rw [processPacket_control (verifyTlsAuth_off hs) (hs ▸ hparse), processControlPacket,
    bind_ok (checkReplay_off (s := noted clock s) hs)]
  rfl

end Plain

section States

/-- A relation that stands every packet but a hard reset. -/
structure Continues (R : ProtocolSession → ProtocolSession → Prop) : Prop where
  reliable : ∀ s t, Received s.reliable t → R s { s with reliable := t }
  tlsReassembler : ∀ s r, Reassembled s.tlsReassembler r → R s { s with tlsReassembler := r }
  rekeying : ∀ s, R s { s with state := .rekeying }
  replayWindow : ∀ s w, R s { s with replayWindow := w }
  lastActivity : ∀ s now, R s { s with lastActivity := now }
  dataChannels : ∀ s channels, R s { s with dataChannels := channels }

variable {ctrl : ControlPacketData} {t : ProtocolSession} {R : ProtocolSession → ProtocolSession → Prop}
  [IsPreorder ProtocolSession R]

theorem Continues.processOpcode (hR : Continues R) (hreset : ctrl.header.opcode.isHardReset = false) :
    Frames R (processOpcode ctrl) := by
  unfold ProtocolSession.processOpcode
  cases hop : ctrl.header.opcode <;> rw [hop] at hreset
  case controlV1 =>
    dsimp only
    split
    · exact frames_receiveTls hR.reliable hR.tlsReassembler _ _
    · exact frames_pure _
  case ackV1 => exact frames_pure _
  case softResetV1 => exact frames_bind (frames_modify hR.rekeying) fun _ => frames_pure _
  all_goals first | exact frames_fail _ | cases hreset

theorem Continues.processPacket (hR : Continues R) (P : Primitives) (clock : Clock)
    (hreset : ∀ opcode, PacketCodec.Begins data opcode → opcode.isHardReset = false) (s : ProtocolSession) :
    R s (processPacket P clock data s).2 := by
  have hnoted : R s (noted clock s) := hR.lastActivity s clock.now
  cases hverify : s.verifyTlsAuth P data with
  | error e =>
    rw [processPacket_of_verify_error hverify]
    exact hnoted
  | ok _ =>
    cases hparse : Packet.parse data s.useTlsAuth with
    | error e =>
      rw [processPacket_of_parse_error hverify hparse]
      exact hnoted
    | ok packet =>
      have hopcode := hreset packet.opcode (PacketCodec.begins_of_parse hparse)
      refine trans_of R hnoted ?_
      cases packet with
      | data packet =>
        rw [processPacket_data hverify hparse]
        exact frames_processDataPacket P hR.dataChannels packet (noted clock s)
      | control ctrl =>
        rw [processPacket_control hverify hparse]
        refine frames_bind (frames_checkReplay hR.replayWindow _) (fun _ => ?_) (noted clock s)
        refine frames_bind (frames_modify fun s => ?_) fun _ => hR.processOpcode hopcode
        split
        · exact refl_of R s
        · exact hR.reliable s _ (received_processAcks _ _ _ _)

def Lapses (s t : ProtocolSession) : Prop := t.state = s.state ∨ t.state = .rekeying

instance : IsPreorder ProtocolSession Lapses where
  refl _ := .inl rfl
  trans _ _ _ h h' := by
    cases h' with
    | inl hsame => exact h.imp hsame.trans hsame.trans
    | inr hrekeying => exact .inr hrekeying

theorem continues_lapses : Continues Lapses where
  reliable _ _ _ := .inl rfl
  tlsReassembler _ _ _ := .inl rfl
  rekeying _ := .inr rfl
  replayWindow _ _ := .inl rfl
  lastActivity _ _ := .inl rfl
  dataChannels _ _ := .inl rfl

theorem receiveTls_result {packetId : UInt32} {payload : Bytes} {result : ProcessedPacket}
    (h : receiveTls packetId payload s = (.ok result, t)) :
    result = .none ∨ ∃ records, result = .tlsData records := by
  obtain ⟨received, _, -, h⟩ := bind_eq_ok h
  cases received with
  | none =>
    cases h
    exact .inl rfl
  | some data =>
    obtain ⟨_, _, -, h⟩ := bind_eq_ok h
    obtain ⟨self, _, -, h⟩ := bind_eq_ok h
    cases hextract : self.tlsReassembler.extractRecords with
    | mk records rest =>
      rw [hextract] at h
      obtain ⟨_, _, -, h⟩ := bind_eq_ok h
      by_cases hempty : records.isEmpty = true
      · rw [if_pos hempty] at h
        cases h
        exact .inl rfl
      · rw [if_neg hempty] at h
        cases h
        exact .inr ⟨records, rfl⟩

theorem processOpcode_cases {result : ProcessedPacket} (h : processOpcode ctrl s = (.ok result, t)) :
    (∃ id, result = .hardReset id ∧ ctrl.header.opcode ≠ .hardResetServerV2) ∨
    (result = .hardResetAck ∧ ctrl.header.opcode = .hardResetServerV2) ∨
    (result = .softReset ∧ ctrl.header.opcode = .softResetV1 ∧ t.state = .rekeying) ∨
    ((result = .none ∨ ∃ records, result = .tlsData records) ∧ ctrl.header.opcode ≠ .hardResetServerV2) := by
  unfold processOpcode at h
  cases hop : ctrl.header.opcode <;> rw [hop] at h
  case hardResetClientV2 | hardResetClientV3 =>
    obtain ⟨_, _, -, h⟩ := bind_eq_ok h
    obtain ⟨_, _, -, h⟩ := bind_eq_ok h
    obtain ⟨_, _, -, h⟩ := bind_eq_ok h
    obtain ⟨_, _, -, h⟩ := bind_eq_ok h
    cases h
    exact .inl ⟨_, rfl, by decide⟩
  case hardResetServerV2 =>
    obtain ⟨_, _, -, h⟩ := bind_eq_ok h
    obtain ⟨_, _, -, h⟩ := bind_eq_ok h
    obtain ⟨_, _, -, h⟩ := bind_eq_ok h
    cases h
    exact .inr (.inl ⟨rfl, rfl⟩)
  case controlV1 =>
    refine .inr (.inr (.inr ⟨?_, by decide⟩))
    cases hid : ctrl.messagePacketId with
    | none =>
      rw [hid] at h
      cases h
      exact .inl rfl
    | some packetId =>
      rw [hid] at h
      exact receiveTls_result h
  case ackV1 =>
    cases h
    exact .inr (.inr (.inr ⟨.inl rfl, by decide⟩))
  case softResetV1 =>
    cases h
    exact .inr (.inr (.inl ⟨rfl, rfl, rfl⟩))
  all_goals cases h

theorem processOpcode_softReset (h : processOpcode ctrl s = (.ok .softReset, t)) : t.state = .rekeying := by
  obtain ⟨_, hresult, -⟩ | ⟨hresult, -⟩ | ⟨-, -, hstate⟩ | ⟨hresult | ⟨_, hresult⟩, -⟩ := processOpcode_cases h
  case inr.inr.inl => exact hstate
  all_goals cases hresult

theorem state_of_softReset (h : processPacket P clock data s = (.ok .softReset, t)) : t.state = .rekeying := by
  obtain ⟨_, _, -, h⟩ := bind_eq_ok h
  obtain ⟨_, _, -, h⟩ := bind_eq_ok h
  obtain ⟨_, _, -, h⟩ := bind_eq_ok h
  obtain ⟨packet, _, -, h⟩ := bind_eq_ok h
  cases packet with
  | data packet =>
    obtain ⟨_, _, -, h⟩ := bind_eq_ok h
    cases h
  | control ctrl =>
    obtain ⟨_, _, -, h⟩ := bind_eq_ok h
    obtain ⟨_, _, -, h⟩ := bind_eq_ok h
    exact processOpcode_softReset h

end States

end CoreVpn.Protocol.Processing
