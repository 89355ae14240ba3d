import CoreVpn.Lib.Simulation
import CoreVpn.Protocol.Processing
import CoreVpn.Protocol.Sending

namespace CoreVpn.Protocol.Repeats

open Lib.Computation Lib.Simulation Lib.Wire Errors Opcodes Packets Reliable ReliableTransport Receive
open Sessions ProtocolSession Sending Processing TlsRecords

section Transport

variable {t u : ReliableTransport} {id : UInt32}

/-- The second transport receives as the first one does, and has no more in
flight. The buffered payloads may differ, since none of them is ever
delivered. -/
structure Mirrors (t u : ReliableTransport) : Prop where
  config : u.config = t.config
  nextSendId : u.nextSendId = t.nextSendId
  nextRecvId : u.nextRecvId = t.nextRecvId
  outOfOrder : ∀ id, id ∈ u.outOfOrder ↔ id ∈ t.outOfOrder
  pending : ∀ id ∈ u.pending, id ∈ t.pending

instance : IsPreorder ReliableTransport Mirrors where
  refl _ := ⟨rfl, rfl, rfl, fun _ => Iff.rfl, fun _ h => h⟩
  trans _ _ _ h h' := ⟨h'.config.trans h.config, h'.nextSendId.trans h.nextSendId,
    h'.nextRecvId.trans h.nextRecvId, fun id => (h'.outOfOrder id).trans (h.outOfOrder id),
    fun id hid => h.pending id (h'.pending id hid)⟩

theorem Mirrors.size_eq (h : Mirrors t u) : u.outOfOrder.size = t.outOfOrder.size :=
  Nat.le_antisymm (size_le_of_subset fun id => (h.outOfOrder id).mp)
    (size_le_of_subset fun id => (h.outOfOrder id).mpr)

theorem drain_succ (fuel : Nat) (h : t.nextRecvId ∈ t.outOfOrder) :
    drain (fuel + 1) t = drain fuel { t with
      nextRecvId := t.nextRecvId + 1
      outOfOrder := t.outOfOrder.erase t.nextRecvId } := by
  rw [Std.ExtTreeMap.mem_iff_isSome_getElem?, Option.isSome_iff_exists] at h
  obtain ⟨payload, hb⟩ := h
  rw [drain, hb]

theorem Mirrors.drain (h : Mirrors t u) (fuel : Nat) :
    Mirrors (ReliableTransport.drain fuel t) (ReliableTransport.drain fuel u) := by
  induction fuel generalizing t u with
  | zero => exact h
  | succ fuel ih =>
    by_cases hmem : t.nextRecvId ∈ t.outOfOrder
    · have hmem' : u.nextRecvId ∈ u.outOfOrder := by
        rw [h.nextRecvId]
        exact (h.outOfOrder _).mpr hmem
      rw [drain_succ fuel hmem, drain_succ fuel hmem']
      refine ih ⟨h.config, h.nextSendId, congrArg (· + 1) h.nextRecvId, fun id => ?_, h.pending⟩
      dsimp only
      rw [mem_erase_iff, mem_erase_iff, h.nextRecvId, h.outOfOrder]
    · have hmem' : u.nextRecvId ∉ u.outOfOrder := by
        rw [h.nextRecvId]
        exact mt (h.outOfOrder _).mp hmem
      rwa [drain_of_notMem _ hmem, drain_of_notMem _ hmem']

theorem simulates_receive (id : UInt32) (data : Bytes) :
    Simulates Mirrors Eq (receive id data) (receive id data) := by
  intro t u h a t' hrun
  have hnext := h.nextRecvId
  rcases receive_cases t id data with ⟨hid, ht⟩ | ⟨-, -, ht⟩ | ⟨hid, hroom, ht⟩ | ⟨hid, ht⟩ <;>
    rw [ht] at hrun <;> cases hrun
  · rw [← hnext] at hid
    subst hid
    refine ⟨_, _, receive_expected u data, rfl, ?_⟩
    rw [h.size_eq]
    refine Mirrors.drain ?_ _
    exact ⟨h.config, h.nextSendId, rfl, h.outOfOrder, h.pending⟩
  · rw [← hnext] at hid
    rw [← h.size_eq] at hroom
    refine ⟨_, _, receive_ahead data hid hroom, rfl, h.config, h.nextSendId, hnext, fun x => ?_, h.pending⟩
    dsimp only
    rw [mem_insert_iff, mem_insert_iff, h.outOfOrder]
  · rw [← hnext] at hid
    exact ⟨_, _, receive_duplicate data hid, rfl, h.config, h.nextSendId, hnext, h.outOfOrder, h.pending⟩

theorem mem_pending_processAcks (F : FloatTime) (now : Instant) (acks : List UInt32) (t : ReliableTransport) :
    id ∈ (processAcks F now acks t).pending ↔ id ∉ acks ∧ id ∈ t.pending := by
  rw [Std.ExtTreeMap.mem_iff_isSome_getElem?, getElem?_processAcks, Std.ExtTreeMap.mem_iff_isSome_getElem?]
  by_cases hid : id ∈ acks <;> simp [hid]

theorem mirrors_processAcks (F : FloatTime) (now : Instant) (acks : List UInt32) (t : ReliableTransport) :
    Mirrors t (processAcks F now acks t) := by
  obtain ⟨hconfig, hnext, hbuffer⟩ := sameReceiving_processAcks F now acks t
  refine ⟨hconfig, (received_processAcks F now acks t).nextSendId, hnext, fun id => by rw [hbuffer], fun id hid => ?_⟩
  exact ((mem_pending_processAcks F now acks t).mp hid).2

theorem Mirrors.processAcks (h : Mirrors t u) (F : FloatTime) (now now' : Instant) (acks : List UInt32) :
    Mirrors (processAcks F now acks t) (processAcks F now' acks u) := by
  obtain ⟨hconfig, hnext, hbuffer⟩ := sameReceiving_processAcks F now acks t
  have hsend := (received_processAcks F now acks t).nextSendId
  obtain ⟨hconfig', hsend', hnext', hbuffer', -⟩ := trans_of Mirrors h (mirrors_processAcks F now' acks u)
  refine ⟨hconfig'.trans hconfig.symm, hsend'.trans hsend.symm, hnext'.trans hnext.symm, fun id => ?_, fun id hid => ?_⟩
  · rw [hbuffer', hbuffer]
  · obtain ⟨hacks, hpending⟩ := (mem_pending_processAcks F now' acks u).mp hid
    exact (mem_pending_processAcks F now acks t).mpr ⟨hacks, h.pending id hpending⟩

theorem simulates_send (now now' : Instant) (data : Bytes) :
    Simulates Mirrors Eq (send now data) (send now' data) := by
  intro t u h a t' hrun
  simp only [send, bind_apply, get_apply] at hrun ⊢
  by_cases hfull : t.pending.size ≥ t.config.windowSize.toNat
  · rw [if_pos hfull] at hrun
    cases hrun
  · have hroom : ¬ u.pending.size ≥ u.config.windowSize.toNat := by
      have hle := size_le_of_subset h.pending
      rw [h.config]
      omega
    rw [if_neg hfull] at hrun
    rw [if_neg hroom]
    cases hrun
    refine ⟨_, _, rfl, by rw [h.nextSendId], h.config, congrArg (· + 1) h.nextSendId, h.nextRecvId, h.outOfOrder, ?_⟩
    intro id hid
    rw [mem_insert_iff, h.nextSendId] at hid
    exact mem_insert_iff.mpr (hid.imp_right (h.pending id))

/-- A message that was taken before: its id has been passed, or it is in the
buffer, which has room still. -/
def Taken (t : ReliableTransport) (id : UInt32) : Prop :=
  id < t.nextRecvId ∨ t.nextRecvId < id ∧ id ∈ t.outOfOrder ∧ t.outOfOrder.size < maxOutOfOrder

theorem receive_taken (data : Bytes) (h : Taken t id) :
    ∃ u, receive id data t = (.ok none, u) ∧ Mirrors t u := by
  rcases h with hpassed | ⟨hahead, hmem, hroom⟩
  · exact ⟨_, receive_duplicate data hpassed, rfl, rfl, rfl, fun _ => Iff.rfl, fun _ h => h⟩
  · refine ⟨_, receive_ahead data hahead hroom, rfl, rfl, rfl, fun x => ?_, fun _ h => h⟩
    rw [mem_insert_iff, or_iff_right_of_imp]
    rintro rfl
    exact hmem

end Transport

section Sessions

variable {tlsAuth : Bool} {s t : ProtocolSession} {α β : Type}

/-- The second session handles packets as the first one does, and can send
whenever the first one can. -/
structure Resembles (s t : ProtocolSession) : Prop where
  localSessionId : t.localSessionId = s.localSessionId
  tlsReassembler : t.tlsReassembler = s.tlsReassembler
  dataChannels : t.dataChannels = s.dataChannels
  useTlsAuth : t.useTlsAuth = s.useTlsAuth
  tlsAuthKey : t.tlsAuthKey = s.tlsAuthKey
  replayWindow : t.replayWindow = s.replayWindow
  reliable : Mirrors s.reliable t.reliable

instance : IsPreorder ProtocolSession Resembles where
  refl s := ⟨rfl, rfl, rfl, rfl, rfl, rfl, refl_of Mirrors s.reliable⟩
  trans _ _ _ h h' := ⟨h'.localSessionId.trans h.localSessionId, h'.tlsReassembler.trans h.tlsReassembler,
    h'.dataChannels.trans h.dataChannels, h'.useTlsAuth.trans h.useTlsAuth, h'.tlsAuthKey.trans h.tlsAuthKey,
    h'.replayWindow.trans h.replayWindow, trans_of Mirrors h.reliable h'.reliable⟩

def Alike (s t : ProtocolSession) : Prop := Resembles s t ∧ Resembles t s

instance : IsPreorder ProtocolSession Alike where
  refl s := ⟨refl_of Resembles s, refl_of Resembles s⟩
  trans _ _ _ h h' := ⟨trans_of Resembles h.1 h'.1, trans_of Resembles h'.2 h.2⟩

theorem alike_reliable {r : ReliableTransport} (h : Mirrors s.reliable r) (h' : Mirrors r s.reliable) :
    Alike s { s with reliable := r } :=
  ⟨⟨rfl, rfl, rfl, rfl, rfl, rfl, h⟩, ⟨rfl, rfl, rfl, rfl, rfl, rfl, h'⟩⟩

/-- Two sessions of a client that has no data keys yet. -/
structure Paired (tlsAuth : Bool) (s t : ProtocolSession) : Prop where
  resembles : Resembles s t
  keyless : ∀ i, s.dataChannels i = none
  useTlsAuth : s.useTlsAuth = tlsAuth

theorem Paired.moved {s' t' : ProtocolSession} (h : Paired tlsAuth s t) (hs : Alike s s') (ht : Alike t t') :
    Paired tlsAuth s' t' where
  resembles := trans_of Resembles hs.2 (trans_of Resembles h.resembles ht.1)
  keyless i := by rw [hs.1.dataChannels, h.keyless]
  useTlsAuth := hs.1.useTlsAuth.trans h.useTlsAuth

theorem Paired.reliable (h : Paired tlsAuth s t) {r r' : ReliableTransport} (hr : Mirrors r r') :
    Paired tlsAuth { s with reliable := r } { t with reliable := r' } :=
  ⟨{ h.resembles with reliable := hr }, h.keyless, h.useTlsAuth⟩

theorem simulates_onReliable {Q : α → β → Prop} {p : Program ReliableTransport ProtocolError α}
    {q : Program ReliableTransport ProtocolError β} (h : Simulates Mirrors Q p q) :
    Simulates (Paired tlsAuth) Q (onReliable p) (onReliable q) :=
  simulates_zoom (fun _ _ h => h.resembles.reliable) (fun _ _ _ _ h hr => h.reliable hr) h

theorem simulates_alike {p : Program ProtocolSession ProtocolError α} {q : Program ProtocolSession ProtocolError β}
    (hp : Moves Alike p) (hq : Moves Alike q) : Simulates (Paired tlsAuth) (fun _ _ => True) p q :=
  simulates_of_moves hp hq fun _ _ _ _ h hs ht => h.moved hs ht

section Sending

variable (P : Primitives) (clock clock' : Clock)

theorem moves_emit (ctrl : ControlPacketData) : Moves Alike (emit P clock ctrl) := by
  intro s
  refine ⟨_, _, rfl, ?_⟩
  unfold maybeWrapTlsAuth
  split
  · split
    · exact refl_of Alike s
    · exact ⟨⟨rfl, rfl, rfl, rfl, rfl, rfl, refl_of Mirrors _⟩, ⟨rfl, rfl, rfl, rfl, rfl, rfl, refl_of Mirrors _⟩⟩
  · exact refl_of Alike s

theorem moves_emitEach (ctrls : List ControlPacketData) : Moves Alike (emitEach P clock ctrls) := by
  induction ctrls with
  | nil => exact moves_pure []
  | cons ctrl ctrls ih =>
    exact moves_bind (moves_emit P clock ctrl) fun _ => moves_bind ih fun _ => moves_pure _

theorem alike_acks (s : ProtocolSession) (acks : List UInt32) (last : Option Instant) :
    Alike s { s with reliable := { s.reliable with pendingAcks := acks, lastAckSent := last } } :=
  alike_reliable ⟨rfl, rfl, rfl, fun _ => Iff.rfl, fun _ h => h⟩ ⟨rfl, rfl, rfl, fun _ => Iff.rfl, fun _ h => h⟩

theorem moves_takeAcks : Moves Alike takeAcks := fun s => ⟨_, _, rfl, alike_acks s [] s.reliable.lastAckSent⟩

theorem moves_createAckPacket : Moves Alike (createAckPacket P clock) := by
  refine moves_bind moves_takeAcks fun acks => ?_
  split
  · exact moves_pure none
  · refine moves_bind moves_get fun self => ?_
    refine moves_bind (moves_modify fun s => alike_acks s s.reliable.pendingAcks (some clock.now)) fun _ => ?_
    exact moves_bind (moves_emit P clock _) fun _ => moves_pure _

theorem moves_getRetransmits : Moves Alike (getRetransmits P clock) := by
  intro s
  have hresent : Alike s { s with reliable := (s.reliable.getRetransmits P.time clock.now).2 } := by
    apply alike_reliable
    · exact ⟨rfl, rfl, rfl, fun _ => Iff.rfl, fun _ => Std.ExtTreeMap.mem_map.mp⟩
    · exact ⟨rfl, rfl, rfl, fun _ => Iff.rfl, fun _ => Std.ExtTreeMap.mem_map.mpr⟩
  obtain ⟨packets, t, hrun, ht⟩ := moves_emitEach P clock
    ((s.reliable.getRetransmits P.time clock.now).1.map fun p =>
      controlPacket s .controlV1 s.currentKeyId s.remoteSessionId [] (some p.1) p.2)
    { s with reliable := (s.reliable.getRetransmits P.time clock.now).2 }
  exact ⟨packets, t, hrun, trans_of Alike hresent ht⟩

theorem simulates_createReliable (opcode : OpCode) (keyId : ProtocolSession → KeyId) (payload : Bytes) :
    Simulates (Paired tlsAuth) (fun _ _ => True) (createReliable P clock opcode keyId payload)
      (createReliable P clock' opcode keyId payload) := by
  refine simulates_bind (simulates_onReliable (simulates_send _ _ payload)) ?_
  rintro ⟨packetId, _⟩ _ rfl
  apply simulates_alike
  · exact moves_bind moves_get fun _ => moves_bind moves_takeAcks fun _ => moves_emit P clock _
  · exact moves_bind moves_get fun _ => moves_bind moves_takeAcks fun _ => moves_emit P clock' _

theorem simulates_createHardResetClient :
    Simulates (Paired tlsAuth) (fun _ _ => True) (createHardResetClient P clock) (createHardResetClient P clock') := by
  refine simulates_bind (simulates_onReliable (simulates_send _ _ [])) ?_
  rintro ⟨packetId, _⟩ _ rfl
  apply simulates_alike
  · exact moves_bind moves_get fun _ => moves_emit P clock _
  · exact moves_bind moves_get fun _ => moves_emit P clock' _

theorem simulates_createEach (chunks : List Bytes) :
    Simulates (Paired tlsAuth) (fun _ _ => True) (createEach P clock chunks) (createEach P clock' chunks) := by
  induction chunks with
  | nil => exact simulates_pure trivial
  | cons chunk chunks ih =>
    refine simulates_bind (simulates_createReliable P clock clock' _ _ chunk) fun _ _ _ => ?_
    exact simulates_bind ih fun _ _ _ => simulates_pure trivial

theorem simulates_createControlPackets (tlsData : Bytes) :
    Simulates (Paired tlsAuth) (fun _ _ => True) (createControlPackets P clock tlsData)
      (createControlPackets P clock' tlsData) := by
  unfold createControlPackets
  split <;> exact simulates_createEach P clock clock' _

end Sending

section Packets

variable (P : Primitives) (clock clock' : Clock)

theorem Resembles.verifyTlsAuth (h : Resembles s t) (data : Bytes) : t.verifyTlsAuth P data = s.verifyTlsAuth P data := by
  rw [ProtocolSession.verifyTlsAuth, ProtocolSession.verifyTlsAuth, h.useTlsAuth, h.tlsAuthKey]

theorem simulates_checkReplay (packetId : Option UInt32) :
    Simulates (Paired tlsAuth) Eq (checkReplay packetId) (checkReplay packetId) := by
  refine simulates_bind simulates_get fun self self' hself => ?_
  rw [hself.resembles.useTlsAuth]
  split
  · refine simulates_bind (simulates_zoom (I := Eq) (fun _ _ h => h.resembles.replayWindow.symm) ?_ (simulates_refl _)) ?_
    · rintro s t w _ h rfl
      exact ⟨{ h.resembles with replayWindow := rfl }, h.keyless, h.useTlsAuth⟩
    · rintro fresh _ rfl
      split
      · exact simulates_pure rfl
      · exact simulates_fail _ _
  · exact simulates_pure rfl

theorem simulates_acknowledge (id : Option UInt32) :
    Simulates (Paired tlsAuth) Eq (acknowledge id) (acknowledge id) := by
  cases id with
  | none => exact simulates_pure rfl
  | some id => exact simulates_bind (simulates_onReliable (simulates_receive id [])) fun _ _ _ => simulates_pure rfl

theorem simulates_receiveTls (packetId : UInt32) (payload : Bytes) :
    Simulates (Paired tlsAuth) Eq (receiveTls packetId payload) (receiveTls packetId payload) := by
  refine simulates_bind (simulates_onReliable (simulates_receive packetId payload)) ?_
  rintro received _ rfl
  cases received with
  | none => exact simulates_pure rfl
  | some data =>
    have hput : ∀ s t r, Paired tlsAuth s t →
        Paired tlsAuth { s with tlsReassembler := r } { t with tlsReassembler := r } :=
      fun s t r h => ⟨{ h.resembles with tlsReassembler := rfl }, h.keyless, h.useTlsAuth⟩
    refine simulates_bind (simulates_zoom (I := Eq) (fun _ _ h => h.resembles.tlsReassembler.symm) ?_ (simulates_refl _)) ?_
    · rintro s t r _ h rfl
      exact hput s t r h
    · intro _ _ _
      refine simulates_bind simulates_get fun self self' hself => ?_
      rw [hself.resembles.tlsReassembler]
      refine simulates_bind (simulates_modify fun s t h => hput s t _ h) fun _ _ _ => ?_
      exact simulates_pure rfl

theorem Paired.state (h : Paired tlsAuth s t) (state : ProtocolState) :
    Paired tlsAuth { s with state } { t with state } := ⟨{ h.resembles with }, h.keyless, h.useTlsAuth⟩

theorem simulates_acceptClientId (sessionId : Option SessionId) :
    Simulates (Paired tlsAuth) Eq (acceptClientId sessionId) (acceptClientId sessionId) := by
  cases sessionId with
  | none => exact simulates_pure rfl
  | some id =>
    change Simulates _ _ (if id = zeros 8 then fail ProtocolError.invalidSessionId else Lib.Computation.modify _)
      (if id = zeros 8 then fail ProtocolError.invalidSessionId else Lib.Computation.modify _)
    split
    · exact simulates_fail _ _
    · exact simulates_modify fun s t h => ⟨{ h.resembles with }, h.keyless, h.useTlsAuth⟩

theorem Paired.acceptServerId (h : Paired tlsAuth s t) (sessionId : Option SessionId) :
    Paired tlsAuth (acceptServerId sessionId s) (acceptServerId sessionId t) := by
  cases sessionId with
  | none => exact h
  | some id => exact ⟨{ h.resembles with }, h.keyless, h.useTlsAuth⟩

theorem simulates_processOpcode (ctrl : ControlPacketData) :
    Simulates (Paired tlsAuth) Eq (processOpcode ctrl) (processOpcode ctrl) := by
  unfold processOpcode
  cases ctrl.header.opcode with
  | hardResetClientV2 | hardResetClientV3 =>
    refine simulates_bind (simulates_acceptClientId _) fun _ _ _ => ?_
    refine simulates_bind (simulates_acknowledge _) fun _ _ _ => ?_
    refine simulates_bind (simulates_modify fun _ _ h => h.state _) fun _ _ _ => ?_
    refine simulates_bind simulates_get fun self self' hself => ?_
    rw [hself.resembles.localSessionId]
    exact simulates_pure rfl
  | hardResetServerV2 =>
    refine simulates_bind (simulates_modify fun _ _ h => h.acceptServerId _) fun _ _ _ => ?_
    refine simulates_bind (simulates_acknowledge _) fun _ _ _ => ?_
    exact simulates_bind (simulates_modify fun _ _ h => h.state _) fun _ _ _ => simulates_pure rfl
  | controlV1 =>
    cases ctrl.messagePacketId with
    | none => exact simulates_pure rfl
    | some packetId => exact simulates_receiveTls packetId ctrl.payload
  | ackV1 => exact simulates_pure rfl
  | softResetV1 => exact simulates_bind (simulates_modify fun _ _ h => h.state _) fun _ _ _ => simulates_pure rfl
  | _ => exact simulates_fail _ _

theorem simulates_processControlPacket (ctrl : ControlPacketData) :
    Simulates (Paired tlsAuth) Eq (processControlPacket P clock ctrl) (processControlPacket P clock' ctrl) := by
  refine simulates_bind (simulates_checkReplay _) fun _ _ _ => ?_
  refine simulates_bind (simulates_modify fun s t h => ?_) fun _ _ _ => simulates_processOpcode ctrl
  split
  · exact h
  · exact h.reliable (h.resembles.reliable.processAcks P.time _ _ _)

theorem onChannel_keyless (h : ∀ i, s.dataChannels i = none) (keyId : KeyId)
    (p : Program DataChannels.DataChannel ProtocolError α) : ∃ e, onChannel keyId p s = (.error e, s) := by
  unfold onChannel
  split
  · rw [h]
    exact ⟨_, rfl⟩
  · exact ⟨_, rfl⟩

theorem simulates_processPacket (data : Bytes) :
    Simulates (Paired tlsAuth) Eq (processPacket P clock data) (processPacket P clock' data) := by
  refine simulates_bind (simulates_modify fun s t h => ⟨{ h.resembles with }, h.keyless, h.useTlsAuth⟩) fun _ _ _ => ?_
  refine simulates_bind simulates_get fun self self' hself => ?_
  rw [hself.resembles.verifyTlsAuth P data, hself.resembles.useTlsAuth]
  refine simulates_bind (simulates_lift _) fun _ _ _ => ?_
  refine simulates_bind (simulates_lift _) ?_
  rintro packet _ rfl
  cases packet with
  | control ctrl => exact simulates_processControlPacket P clock clock' ctrl
  | data packet =>
    intro s t h a s' hrun
    obtain ⟨_, _, hdecrypt, -⟩ := bind_eq_ok hrun
    obtain ⟨e, hkeyless⟩ := onChannel_keyless h.keyless packet.header.keyId
      (DataChannels.DataChannel.decrypt P.aead ⟨packet.header.keyId, packet.peerId, packet.payload⟩)
    rw [hkeyless] at hdecrypt
    cases hdecrypt

end Packets

section Again

variable {P : Primitives} {clock : Clock} {ctrl : ControlPacketData} {data : Bytes} {result : ProcessedPacket}

def takenId (ctrl : ControlPacketData) : Option UInt32 :=
  if ctrl.header.opcode.isHardReset || ctrl.header.opcode == .controlV1 then ctrl.messagePacketId else none

def messageId (data : Bytes) : Option UInt32 :=
  match Packet.parse data false with
  | .ok (.control ctrl) => takenId ctrl
  | _ => none

def Accepted (ctrl : ControlPacketData) : Prop :=
  ∃ s result t, processOpcode ctrl s = (.ok result, t)

theorem hardResetAck_iff (h : processOpcode ctrl s = (.ok result, t)) :
    result = .hardResetAck ↔ ctrl.header.opcode = .hardResetServerV2 := by
  obtain ⟨_, rfl, hop⟩ | ⟨rfl, hop⟩ | ⟨rfl, hop, -⟩ | ⟨rfl | ⟨_, rfl⟩, hop⟩ := processOpcode_cases h
  · exact iff_of_false nofun hop
  · exact iff_of_true rfl hop
  · exact iff_of_false nofun (by rw [hop]; decide)
  · exact iff_of_false nofun hop
  · exact iff_of_false nofun hop

theorem resembles_reliable {r : ReliableTransport} (h : Mirrors s.reliable r) :
    Resembles s { s with reliable := r } := ⟨rfl, rfl, rfl, rfl, rfl, rfl, h⟩

theorem onReliable_taken {id : UInt32} (payload : Bytes) (h : Taken s.reliable id) :
    ∃ t, onReliable (receive id payload) s = (.ok none, t) ∧ Resembles s t := by
  obtain ⟨r, hr, hmirrors⟩ := receive_taken payload h
  refine ⟨{ s with reliable := r }, ?_, resembles_reliable hmirrors⟩
  simp only [onReliable, zoom, hr, Outcome.mapFault]

theorem acknowledge_taken (id : Option UInt32) (h : ∀ i ∈ id, Taken s.reliable i) :
    ∃ t, acknowledge id s = (.ok (), t) ∧ Resembles s t := by
  cases id with
  | none => exact ⟨s, rfl, refl_of Resembles s⟩
  | some id =>
    obtain ⟨t, ht, hst⟩ := onReliable_taken [] (h id rfl)
    exact ⟨t, bind_ok ht, hst⟩

theorem acceptClientId_again {id : Option SessionId} {s' t' : ProtocolSession}
    (h : acceptClientId id s' = (.ok (), t')) (s : ProtocolSession) :
    ∃ remote, acceptClientId id s = (.ok (), { s with remoteSessionId := remote }) := by
  cases id with
  | none => exact ⟨s.remoteSessionId, rfl⟩
  | some id =>
    refine ⟨some id, ?_⟩
    change (if id = zeros 8 then fail ProtocolError.invalidSessionId else Lib.Computation.modify _) s' = _ at h
    change (if id = zeros 8 then fail ProtocolError.invalidSessionId else Lib.Computation.modify _) s = _
    by_cases hzero : id = zeros 8
    · rw [if_pos hzero] at h
      cases h
    · rw [if_neg hzero]
      rfl

theorem processOpcode_again (h : Accepted ctrl) (hid : ∀ id ∈ takenId ctrl, Taken s.reliable id) :
    ∃ result t, processOpcode ctrl s = (.ok result, t) ∧ Resembles s t ∧ ∀ records, result ≠ .tlsData records := by
  obtain ⟨s', result', t', hfirst⟩ := h
  unfold processOpcode at hfirst ⊢
  unfold takenId at hid
  cases hop : ctrl.header.opcode <;> rw [hop] at hfirst hid <;> dsimp only
  case hardResetClientV2 | hardResetClientV3 =>
    obtain ⟨_, _, haccept, -⟩ := bind_eq_ok hfirst
    obtain ⟨remote, hremote⟩ := acceptClientId_again haccept s
    obtain ⟨t, ht, hst⟩ := acknowledge_taken (s := { s with remoteSessionId := remote }) ctrl.messagePacketId hid
    rw [bind_ok hremote, bind_ok ht]
    exact ⟨_, _, rfl, { hst with }, nofun⟩
  case hardResetServerV2 =>
    have hserver : Resembles s (acceptServerId ctrl.header.sessionId s) := by
      cases ctrl.header.sessionId with
      | none => exact refl_of Resembles s
      | some id => exact { refl_of Resembles s with }
    have htaken : ∀ id ∈ ctrl.messagePacketId, Taken (acceptServerId ctrl.header.sessionId s).reliable id := by
      cases ctrl.header.sessionId with
      | none => exact hid
      | some id => exact hid
    obtain ⟨t, ht, hst⟩ := acknowledge_taken ctrl.messagePacketId htaken
    rw [bind_apply, modify_apply]
    dsimp only
    rw [bind_ok ht]
    exact ⟨_, _, rfl, { trans_of Resembles hserver hst with }, nofun⟩
  case controlV1 =>
    cases hpacket : ctrl.messagePacketId with
    | none => exact ⟨_, _, rfl, refl_of Resembles s, nofun⟩
    | some id =>
      obtain ⟨t, ht, hst⟩ := onReliable_taken ctrl.payload (hid id hpacket)
      exact ⟨.none, t, bind_ok ht, hst, nofun⟩
  case softResetV1 => exact ⟨_, _, rfl, { refl_of Resembles s with }, nofun⟩
  case ackV1 => exact ⟨_, _, rfl, refl_of Resembles s, nofun⟩
  all_goals cases hfirst

theorem resembles_acked (P : Primitives) (clock : Clock) (ctrl : ControlPacketData) (s : ProtocolSession) :
    Resembles s (acked P clock ctrl (noted clock s)) := by
  unfold acked
  split
  · exact { refl_of Resembles s with }
  · exact ⟨rfl, rfl, rfl, rfl, rfl, rfl, mirrors_processAcks _ _ _ _⟩

theorem taken_acked {id : UInt32} (h : Taken s.reliable id) :
    Taken (acked P clock ctrl (noted clock s)).reliable id := by
  unfold acked
  split
  · exact h
  · obtain ⟨-, hnext, hbuffer⟩ := sameReceiving_processAcks P.time clock.now ctrl.acks s.reliable
    unfold Taken at h ⊢
    dsimp only [noted]
    rwa [hnext, hbuffer]

theorem accepted_of_ok (hkeyless : ∀ i, s.dataChannels i = none) (hplain : s.useTlsAuth = false)
    (h : processPacket P clock data s = (.ok result, t)) :
    ∃ ctrl, Packet.parse data false = .ok (.control ctrl) ∧ Accepted ctrl ∧
      (result = .hardResetAck ↔ ctrl.header.opcode = .hardResetServerV2) := by
  cases hparse : Packet.parse data false with
  | error e =>
    rw [processPacket_of_parse_error (verifyTlsAuth_off hplain) (hplain ▸ hparse)] at h
    cases h
  | ok packet =>
    cases packet with
    | control ctrl =>
      rw [processPacket_plain hplain hparse] at h
      exact ⟨ctrl, rfl, ⟨_, _, _, h⟩, hardResetAck_iff h⟩
    | data packet =>
      rw [processPacket_data (verifyTlsAuth_off hplain) (hplain ▸ hparse)] at h
      obtain ⟨_, _, hdecrypt, -⟩ := bind_eq_ok h
      obtain ⟨e, hnone⟩ := onChannel_keyless (s := noted clock s) hkeyless packet.header.keyId
        (DataChannels.DataChannel.decrypt P.aead ⟨packet.header.keyId, packet.peerId, packet.payload⟩)
      rw [hnone] at hdecrypt
      cases hdecrypt

/-- A datagram that comes again changes nothing that matters. -/
theorem processPacket_again (P : Primitives) (clock : Clock) (hplain : s.useTlsAuth = false)
    (hparse : Packet.parse data false = .ok (.control ctrl)) (h : Accepted ctrl) (hid : ∀ id ∈ messageId data, Taken s.reliable id) :
    ∃ result t, processPacket P clock data s = (.ok result, t) ∧ Resembles s t ∧
      (∀ records, result ≠ .tlsData records) ∧
      (result = .hardResetAck ↔ ctrl.header.opcode = .hardResetServerV2) := by
  have htaken : ∀ id ∈ takenId ctrl, Taken (acked P clock ctrl (noted clock s)).reliable id := by
    intro id hmem
    apply taken_acked
    apply hid
    rw [messageId, hparse]
    exact hmem
  obtain ⟨result, t, hrun, hst, hrecords⟩ := processOpcode_again h htaken
  refine ⟨result, t, ?_, trans_of Resembles (resembles_acked P clock ctrl s) hst, hrecords, hardResetAck_iff hrun⟩
  rw [processPacket_plain hplain hparse, hrun]

end Again

end Sessions

end CoreVpn.Protocol.Repeats
