import CoreVpn.Protocol.Readback
import CoreVpn.Protocol.Receive
import CoreVpn.Protocol.RecordStreams

namespace CoreVpn.Protocol.SessionFrames

open Lib.Computation Lib.Wire Crypto.Keys Errors Opcodes Packets Sessions ProtocolSession Sending Readback Receive
open TlsRecords RecordStreams

instance : IsPreorder ProtocolSession SameEnds where
  refl := SameEnds.refl
  trans _ _ _ h h' := h.trans h'

/-- Incoming packets never rotate the key and never establish a session. -/
structure Onward (s t : ProtocolSession) : Prop where
  currentKeyId : t.currentKeyId = s.currentKeyId
  established : t.state = .established → s.state = .established

instance : IsPreorder ProtocolSession Onward where
  refl _ := ⟨rfl, id⟩
  trans _ _ _ h h' := ⟨h'.1.trans h.1, h.2 ∘ h'.2⟩

variable (P : Primitives) (clock : Clock) {R : ProtocolSession → ProtocolSession → Prop}
  [IsPreorder ProtocolSession R]

theorem frames_onChannel {α : Type} (hchannels : ∀ s channels, R s { s with dataChannels := channels })
    (keyId : KeyId) (p : Program DataChannels.DataChannel ProtocolError α) : Frames R (onChannel keyId p) := by
  intro s
  unfold onChannel
  split
  · split
    · exact hchannels s _
    · exact refl_of R s
  · exact refl_of R s

section Building

/-- A relation that stands what the builders of packets change. -/
structure Sends (R : ProtocolSession → ProtocolSession → Prop) : Prop where
  reliable : ∀ s t, SameReceiving s.reliable t → R s { s with reliable := t }
  tlsAuthPacketId : ∀ s id, R s { s with tlsAuthPacketId := id }

theorem sends_sameEnds : Sends SameEnds where
  reliable s t _ := sameEnds_reliable s t
  tlsAuthPacketId _ _ := ⟨rfl, rfl, rfl, rfl, rfl, rfl⟩

/-- A session and what it becomes by sending and by installing keys: all else
is as it was. -/
def SameSetup (s t : ProtocolSession) : Prop :=
  ∃ reliable tlsAuthPacketId dataChannels, t = { s with reliable, tlsAuthPacketId, dataChannels }

instance : IsPreorder ProtocolSession SameSetup where
  refl s := ⟨s.reliable, s.tlsAuthPacketId, s.dataChannels, rfl⟩
  trans _ _ _ h h' := by
    obtain ⟨_, _, _, rfl⟩ := h
    obtain ⟨reliable, tlsAuthPacketId, dataChannels, rfl⟩ := h'
    exact ⟨reliable, tlsAuthPacketId, dataChannels, rfl⟩

theorem sends_sameSetup : Sends SameSetup where
  reliable s t _ := ⟨t, s.tlsAuthPacketId, s.dataChannels, rfl⟩
  tlsAuthPacketId s id := ⟨s.reliable, id, s.dataChannels, rfl⟩

theorem sameSetup_dataChannels (s : ProtocolSession) (channels : Fin 8 → Option DataChannels.DataChannel) :
    SameSetup s { s with dataChannels := channels } := ⟨s.reliable, s.tlsAuthPacketId, channels, rfl⟩

variable (hR : Sends R)

include hR

theorem frames_emit (ctrl : ControlPacketData) : Frames R (emit P clock ctrl) := by
  intro s
  change R s (maybeWrapTlsAuth P clock (Packet.serialize (.control ctrl)) s).2
  unfold maybeWrapTlsAuth
  split
  · split
    · exact refl_of R s
    · exact hR.tlsAuthPacketId s _
  · exact refl_of R s

omit [IsPreorder ProtocolSession R] in
theorem frames_takeAcks : Frames R takeAcks := fun s => hR.reliable s _ ⟨rfl, rfl, rfl⟩

theorem frames_createReliable (opcode : OpCode) (keyId : ProtocolSession → KeyId) (payload : Bytes) :
    Frames R (createReliable P clock opcode keyId payload) := by
  refine frames_bind (frames_zoom (sameReceiving_send _ _) hR.reliable) fun _ => frames_bind frames_get fun self => ?_
  exact frames_bind (frames_takeAcks hR) fun _ => frames_emit P clock hR _

theorem frames_createEach (chunks : List Bytes) : Frames R (createEach P clock chunks) := by
  induction chunks with
  | nil => exact frames_pure _
  | cons chunk rest ih =>
    apply frames_bind (frames_createReliable P clock hR _ _ _)
    exact fun _ => frames_bind ih fun _ => frames_pure _

theorem frames_emitEach (ctrls : List ControlPacketData) : Frames R (emitEach P clock ctrls) := by
  induction ctrls with
  | nil => exact frames_pure _
  | cons ctrl rest ih =>
    exact frames_bind (frames_emit P clock hR ctrl) fun _ => frames_bind ih fun _ => frames_pure _

theorem frames_createHardResetClient : Frames R (createHardResetClient P clock) := by
  apply frames_bind (frames_zoom (sameReceiving_send _ _) hR.reliable)
  exact fun _ => frames_bind frames_get fun _ => frames_emit P clock hR _

theorem frames_createControlPackets (tlsData : Bytes) : Frames R (createControlPackets P clock tlsData) := by
  unfold createControlPackets
  split <;> exact frames_createEach P clock hR _

theorem frames_createAckPacket : Frames R (createAckPacket P clock) := by
  refine frames_bind (frames_takeAcks hR) fun acks => ?_
  split
  · exact frames_pure _
  · refine frames_bind frames_get fun self => ?_
    refine frames_bind (frames_modify fun s => hR.reliable s _ ⟨rfl, rfl, rfl⟩) fun _ => ?_
    exact frames_bind (frames_emit P clock hR _) fun _ => frames_pure _

theorem frames_getRetransmits : Frames R (getRetransmits P clock) := by
  apply frames_get_bind
  intro s
  refine trans_of R (hR.reliable s _ ?_) (frames_emitEach P clock hR _ _)
  exact ⟨rfl, rfl, rfl⟩

omit hR

theorem frames_encryptData (hchannels : ∀ s channels, R s { s with dataChannels := channels }) (data : Bytes) :
    Frames R (encryptData P data) :=
  frames_bind frames_get fun _ => frames_bind (frames_onChannel hchannels _ _) fun _ => frames_pure _

theorem frames_installKeys (hchannels : ∀ s channels, R s { s with dataChannels := channels })
    (material : KeyMaterial) (isServer : Bool) : Frames R (installKeys material isServer) := by
  intro s
  unfold installKeys
  dsimp only
  split
  · exact hchannels s _
  · exact refl_of R s

end Building

section Processing

structure Reassembled (r r' : TlsRecordReassembler) : Prop where
  maxSize : r'.maxSize = r.maxSize
  within : r.buffer.length ≤ r.maxSize → r'.buffer.length ≤ r'.maxSize

instance : IsPreorder TlsRecordReassembler Reassembled where
  refl _ := ⟨rfl, id⟩
  trans _ _ _ h h' := ⟨h'.maxSize.trans h.maxSize, h'.within ∘ h.within⟩

theorem reassembled_add (data : Bytes) : Frames Reassembled (TlsRecordReassembler.add data) := by
  intro r
  rw [add_eq]
  split
  · exact refl_of Reassembled r
  · rename_i hroom
    refine ⟨rfl, fun _ => ?_⟩
    rw [List.length_append]
    exact Nat.le_of_not_lt hroom

theorem reassembled_extractRecords (r : TlsRecordReassembler) : Reassembled r r.extractRecords.2 := by
  refine ⟨rfl, fun h => le_trans ?_ h⟩
  have hflatten := congrArg List.length (Lib.Framing.Sizing.split_flatten (S := recordSizing) r.buffer.length r.buffer)
  rw [List.length_append, ← splitRecords_eq] at hflatten
  exact le_of_le_of_eq (Nat.le_add_left _ _) hflatten

/-- A relation that stands what the handling of an opcode changes. The states
that packets lead to are not the established one. -/
structure Tolerates (R : ProtocolSession → ProtocolSession → Prop) : Prop where
  reliable : ∀ s t, Received s.reliable t → R s { s with reliable := t }
  tlsReassembler : ∀ s r, Reassembled s.tlsReassembler r → R s { s with tlsReassembler := r }
  remoteSessionId : ∀ s id, R s { s with remoteSessionId := some id }
  state : ∀ (s : ProtocolSession) (state : ProtocolState), state ≠ .established → R s { s with state }

theorem frames_checkReplay (hwindow : ∀ s w, R s { s with replayWindow := w }) (packetId : Option UInt32) :
    Frames R (checkReplay packetId) := by
  refine frames_bind frames_get fun self => ?_
  split
  · refine frames_bind (fun s => hwindow s _) fun fresh => ?_
    split
    · exact frames_pure ()
    · exact frames_fail _
  · exact frames_pure ()

theorem frames_processDataPacket (hchannels : ∀ s channels, R s { s with dataChannels := channels })
    (packet : DataPacketData) : Frames R (processDataPacket P packet) := by
  exact frames_bind (frames_onChannel hchannels _ _) fun _ => frames_pure _

theorem frames_acknowledge (hreliable : ∀ s t, Received s.reliable t → R s { s with reliable := t })
    (id : Option UInt32) : Frames R (acknowledge id) := by
  cases id with
  | none => exact frames_pure ()
  | some id => exact frames_bind (fun s => hreliable s _ (frames_receive _ _ s.reliable)) fun _ => frames_pure ()

theorem frames_receiveTls (hreliable : ∀ s t, Received s.reliable t → R s { s with reliable := t })
    (hreassembler : ∀ s r, Reassembled s.tlsReassembler r → R s { s with tlsReassembler := r })
    (packetId : UInt32) (payload : Bytes) : Frames R (receiveTls packetId payload) := by
  refine frames_bind (fun s => hreliable s _ (frames_receive _ _ s.reliable)) fun data => ?_
  cases data with
  | none => exact frames_pure _
  | some data =>
    refine frames_bind (frames_zoom (reassembled_add data) hreassembler) fun _ => ?_
    exact frames_get_bind fun s => hreassembler s _ (reassembled_extractRecords _)

variable (hR : Tolerates R)

include hR

theorem frames_acceptClientId (id : Option SessionId) : Frames R (acceptClientId id) := by
  cases id with
  | none => exact frames_pure ()
  | some id =>
    change Frames R (if id = zeros 8 then fail ProtocolError.invalidSessionId else Lib.Computation.modify _)
    split
    · exact frames_fail _
    · exact frames_modify fun s => hR.remoteSessionId s id

theorem acceptServerId_rel (id : Option SessionId) (s : ProtocolSession) : R s (acceptServerId id s) := by
  cases id with
  | none => exact refl_of R s
  | some id => exact hR.remoteSessionId s id

theorem frames_processOpcode (ctrl : ControlPacketData) : Frames R (processOpcode ctrl) := by
  unfold processOpcode
  split
  · refine frames_bind (frames_acceptClientId hR _) fun _ => frames_bind (frames_acknowledge hR.reliable _) fun _ => ?_
    exact frames_bind (frames_modify fun s => hR.state s _ (by decide)) fun _ => frames_bind frames_get fun _ => frames_pure _
  · refine frames_bind (frames_acceptClientId hR _) fun _ => frames_bind (frames_acknowledge hR.reliable _) fun _ => ?_
    exact frames_bind (frames_modify fun s => hR.state s _ (by decide)) fun _ => frames_bind frames_get fun _ => frames_pure _
  · refine frames_bind (frames_modify (acceptServerId_rel hR _)) fun _ =>
      frames_bind (frames_acknowledge hR.reliable _) fun _ => ?_
    exact frames_bind (frames_modify fun s => hR.state s _ (by decide)) fun _ => frames_pure _
  · split
    · exact frames_receiveTls hR.reliable hR.tlsReassembler _ _
    · exact frames_pure _
  · exact frames_pure _
  · exact frames_bind (frames_modify fun s => hR.state s _ (by decide)) fun _ => frames_pure _
  · exact frames_fail _

theorem frames_processAccepted (ctrl : ControlPacketData) :
    Frames R (Lib.Computation.modify (fun s => if ctrl.acks.isEmpty then s
      else { s with reliable := s.reliable.processAcks P.time clock.now ctrl.acks }) >>= fun _ =>
        processOpcode ctrl) := by
  refine frames_bind (frames_modify fun s => ?_) fun _ => frames_processOpcode hR ctrl
  split
  · exact refl_of R s
  · exact hR.reliable s _ (received_processAcks _ _ _ _)

theorem frames_processPacket_of (hwindow : ∀ s w, R s { s with replayWindow := w })
    (hactivity : ∀ s now, R s { s with lastActivity := now })
    (hchannels : ∀ s channels, R s { s with dataChannels := channels }) (data : Bytes) :
    Frames R (processPacket P clock data) := by
  refine frames_bind (frames_modify fun s => hactivity s _) fun _ => frames_bind frames_get fun self => ?_
  refine frames_bind (frames_lift _) fun _ => frames_bind (frames_lift _) fun packet => ?_
  cases packet with
  | control ctrl =>
    exact frames_bind (frames_checkReplay hwindow _) fun _ => frames_processAccepted P clock hR ctrl
  | data packet => exact frames_processDataPacket P hchannels packet

omit hR

theorem tolerates_onward : Tolerates Onward where
  reliable _ _ _ := ⟨rfl, id⟩
  tlsReassembler _ _ _ := ⟨rfl, id⟩
  remoteSessionId _ _ := ⟨rfl, id⟩
  state _ _ h := ⟨rfl, fun hs => absurd hs h⟩

theorem frames_processPacket (data : Bytes) : Frames Onward (processPacket P clock data) :=
  frames_processPacket_of P clock tolerates_onward (fun _ _ => ⟨rfl, id⟩) (fun _ _ => ⟨rfl, id⟩)
    (fun _ _ => ⟨rfl, id⟩) data

end Processing

end CoreVpn.Protocol.SessionFrames
