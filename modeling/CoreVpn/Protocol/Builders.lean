import CoreVpn.Protocol.Readback

namespace CoreVpn.Protocol.Builders

open Lib.Computation Lib.Wire Errors Opcodes Packets Reliable Sessions ProtocolSession Sending Readback

variable {P : Primitives} {clock : Clock} {s t : ProtocolSession}

def WindowFull (s : ProtocolSession) : Prop :=
  s.reliable.config.windowSize.toNat ≤ s.reliable.pending.size

instance (s : ProtocolSession) : Decidable (WindowFull s) := inferInstanceAs (Decidable (_ ≤ _))

def enqueue (now : Instant) (data : Bytes) (t : ReliableTransport) : ReliableTransport :=
  { t with
    nextSendId := t.nextSendId + 1
    pending := t.pending.insert t.nextSendId
      { data, sentAt := now, nextRetransmit := now + t.calculateRto, rto := t.calculateRto, retransmits := 0 } }

theorem send_eq (now : Instant) (data : Bytes) (t : ReliableTransport) :
    ReliableTransport.send now data t =
      if t.config.windowSize.toNat ≤ t.pending.size then
        (.error (.error (.invalidPacket "send window full")), t)
      else (.ok (t.nextSendId, data), enqueue now data t) := by
  rw [ReliableTransport.send, bind_apply, get_apply]
  dsimp only
  split <;> rfl

theorem send_full (now : Instant) (data : Bytes) (h : WindowFull s) :
    onReliable (ReliableTransport.send now data) s = (.error (.error (.invalidPacket "send window full")), s) := by
  have hsend := (send_eq now data s.reliable).trans (if_pos h)
  rw [onReliable, zoom, hsend]
  rfl

theorem send_room (now : Instant) (data : Bytes) (h : ¬ WindowFull s) :
    onReliable (ReliableTransport.send now data) s =
      (.ok (s.reliable.nextSendId, data), { s with reliable := enqueue now data s.reliable }) := by
  have hsend := (send_eq now data s.reliable).trans (if_neg h)
  rw [onReliable, zoom, hsend]
  rfl

theorem mem_getRetransmits {F : FloatTime} {now : Instant} {t : ReliableTransport} {p : UInt32 × Bytes} :
    p ∈ (t.getRetransmits F now).1 ↔
      ∃ q ∈ t.pending.toList, ReliableTransport.isDue t.config now q.2 = true ∧ (q.1, q.2.data) = p := by
  rw [ReliableTransport.getRetransmits, List.mem_map]
  simp only [List.mem_filter, and_assoc]

/-- The packet that carries a payload under the next message id, with all
pending acknowledgments. -/
def reliablePacket (opcode : OpCode) (keyId : KeyId) (payload : Bytes) (s : ProtocolSession) :
    ControlPacketData :=
  controlPacket s opcode keyId s.remoteSessionId s.reliable.pendingAcks (some s.reliable.nextSendId) payload

def sent (clock : Clock) (payload : Bytes) (s : ProtocolSession) : ProtocolSession :=
  { s with reliable := { enqueue clock.now payload s.reliable with pendingAcks := [] } }

theorem createReliable_full {opcode : OpCode} {keyId : ProtocolSession → KeyId} {payload : Bytes}
    (h : WindowFull s) : createReliable P clock opcode keyId payload s =
      (.error (.error (.invalidPacket "send window full")), s) := bind_error (send_full clock.now payload h)

theorem createReliable_room {opcode : OpCode} {keyId : ProtocolSession → KeyId} {payload : Bytes}
    (hkeyId : ∀ r, keyId { s with reliable := r } = keyId s) (h : ¬ WindowFull s) :
    createReliable P clock opcode keyId payload s =
      emit P clock (reliablePacket opcode (keyId s) payload s) (sent clock payload s) := by
  rw [createReliable, bind_ok (send_room clock.now payload h), ← hkeyId]
  rfl

theorem createHardResetClient_full (h : WindowFull s) : createHardResetClient P clock s =
    (.error (.error (.invalidPacket "send window full")), s) := bind_error (send_full clock.now [] h)

theorem createHardResetClient_room (h : ¬ WindowFull s) : createHardResetClient P clock s =
    emit P clock (controlPacket s .hardResetClientV2 ⟨0⟩ none [] (some s.reliable.nextSendId) [])
      { s with reliable := enqueue clock.now [] s.reliable } := by
  rw [createHardResetClient, bind_ok (send_room clock.now [] h)]
  rfl

/-- A builder that carries the pending acknowledgments either finds the send
window full, or returns one packet with them and the next message id. -/
theorem createReliable_ok {opcode : OpCode} {keyId : ProtocolSession → KeyId} {payload packet : Bytes}
    (hop : opcode.isData = false) (hack : opcode ≠ .ackV1)
    (hkeyId : ∀ r, keyId { s with reliable := r } = keyId s) (hkey : (keyId s).val < 8)
    (h : createReliable P clock opcode keyId payload s = (.ok packet, t)) :
    strip s packet = Packet.serialize (.control (reliablePacket opcode (keyId s) payload s)) ∧
      Readable s packet ⟨s.reliable.pendingAcks, some s.reliable.nextSendId, payload⟩ ∧ SameEnds s t ∧
      t.reliable = (sent clock payload s).reliable := by
  by_cases hfull : WindowFull s
  · rw [createReliable_full hfull] at h
    cases h
  · obtain ⟨packet', u, hemit, hstrip, hsame, hrel⟩ := emit_eq P clock (sent clock payload s) s opcode (keyId s)
      s.remoteSessionId s.reliable.pendingAcks (some s.reliable.nextSendId) payload hop hkey
    have hends : SameEnds s (sent clock payload s) := sameEnds_reliable s _
    rw [createReliable_room hkeyId hfull, reliablePacket, hemit] at h
    cases h
    rw [hends.strip_eq] at hstrip
    refine ⟨hstrip, ?_, hends.trans hsame, hrel⟩
    rw [Readable, hstrip]
    exact @parsesTo_iff s opcode (keyId s) s.remoteSessionId
      ⟨s.reliable.pendingAcks, some s.reliable.nextSendId, payload⟩ hop hkey (by simp [hack]) (.inl rfl)

/-- What the packets of a split message carry: the acknowledgments go with the first. -/
def splitContents (acks : List UInt32) (id : UInt32) : List Bytes → List Content
  | [] => []
  | chunk :: rest => ⟨acks, some id, chunk⟩ :: splitContents [] (id + 1) rest

def fragment (s : ProtocolSession) (c : Content) : ControlPacketData :=
  controlPacket s .controlV1 s.currentKeyId s.remoteSessionId c.acks c.messagePacketId c.payload

theorem SameEnds.fragment_eq (h : SameEnds s t) : fragment t = fragment s := by
  funext c
  rw [fragment, fragment, controlPacket, controlPacket, h.localSessionId, h.remoteSessionId, h.currentKeyId]

theorem createEach_strip (hkey : s.currentKeyId.val < 8) {chunks packets : List Bytes}
    (h : createEach P clock chunks s = (.ok packets, t)) :
    List.Forall₂ (fun packet c => strip s packet = Packet.serialize (.control (fragment s c))) packets
      (splitContents s.reliable.pendingAcks s.reliable.nextSendId chunks) := by
  induction chunks generalizing s packets t with
  | nil =>
    cases h
    exact .nil
  | cons chunk rest ih =>
    obtain ⟨packet, u, hfirst, h⟩ := bind_eq_ok h
    obtain ⟨packets', v, hrest, h⟩ := bind_eq_ok h
    cases h
    obtain ⟨hstrip, -, hsame, hrel⟩ := createReliable_ok rfl (by decide) (fun _ => rfl) hkey hfirst
    have hrest' := ih (by rw [hsame.currentKeyId]; exact hkey) hrest
    rw [hrel, hsame.strip_eq, SameEnds.fragment_eq hsame] at hrest'
    exact .cons hstrip hrest'

theorem splitContents_messagePacketId {acks : List UInt32} {id : UInt32} {chunks : List Bytes} {c : Content}
    (h : c ∈ splitContents acks id chunks) : c.messagePacketId ≠ none := by
  induction chunks generalizing acks id with
  | nil => cases h
  | cons chunk rest ih =>
    rcases List.mem_cons.mp h with rfl | h
    · exact Option.some_ne_none _
    · exact ih h

theorem createEach_ok (hkey : s.currentKeyId.val < 8) {chunks packets : List Bytes}
    (h : createEach P clock chunks s = (.ok packets, t)) :
    List.Forall₂ (Readable s) packets
      (splitContents s.reliable.pendingAcks s.reliable.nextSendId chunks) := by
  have hstrip := createEach_strip hkey h
  refine (List.forall₂_iff_zip.mp hstrip).elim fun hlen hall => List.forall₂_iff_zip.mpr ⟨hlen, ?_⟩
  intro packet c hmem
  have hid := splitContents_messagePacketId (List.of_mem_zip hmem).2
  rw [Readable, hall hmem]
  exact @parsesTo_iff s .controlV1 s.currentKeyId s.remoteSessionId c rfl hkey (by simp [hid]) (.inl rfl)

theorem createHardResetClient_ok {packet : Bytes} (h : createHardResetClient P clock s = (.ok packet, t)) :
    Readable s packet ⟨[], some s.reliable.nextSendId, []⟩ := by
  by_cases hfull : WindowFull s
  · rw [createHardResetClient_full hfull] at h
    cases h
  · have hends := sameEnds_reliable s (enqueue clock.now [] s.reliable)
    obtain ⟨packet', u, hemit, hread, -, -⟩ := emit_readable P clock { s with
      reliable := enqueue clock.now [] s.reliable } .hardResetClientV2 ⟨0⟩ none
      ⟨[], some s.reliable.nextSendId, []⟩ rfl (by decide) (by simp) (.inr rfl)
    rw [createHardResetClient_room hfull] at h
    cases hemit.symm.trans h
    exact (hends.readable_iff _ _).mp hread

theorem createAckPacket_ok (hkey : s.currentKeyId.val < 8) {packet : Bytes}
    (h : createAckPacket P clock s = (.ok (some packet), t)) :
    Readable s packet ⟨s.reliable.pendingAcks, none, []⟩ := by
  have hends := sameEnds_reliable s
    (ReliableTransport.ackSent clock.now { s.reliable with pendingAcks := [] })
  obtain ⟨packet', u, hemit, hread, -, -⟩ := emit_readable P clock { s with
    reliable := ReliableTransport.ackSent clock.now { s.reliable with pendingAcks := [] } }
    .ackV1 s.currentKeyId s.remoteSessionId ⟨s.reliable.pendingAcks, none, []⟩ rfl hkey (by simp) (.inl rfl)
  have hc : createAckPacket P clock s = if s.reliable.pendingAcks.isEmpty then
      (.ok none, { s with reliable := { s.reliable with pendingAcks := [] } })
      else (.ok (some packet'), u) := by
    have htake : takeAcks s =
        (.ok s.reliable.pendingAcks, { s with reliable := { s.reliable with pendingAcks := [] } }) := rfl
    rw [createAckPacket, bind_ok htake]
    split
    · rfl
    · exact bind_ok (f := fun packet => pure (some packet)) hemit
  rw [hc] at h
  split at h
  · cases h
  · cases h
    exact (hends.readable_iff _ _).mp hread

def repeated (s : ProtocolSession) (p : UInt32 × Bytes) : ControlPacketData :=
  controlPacket s .controlV1 s.currentKeyId s.remoteSessionId [] (some p.1) p.2

theorem emitEach_repeated {s₀ : ProtocolSession} (hends : SameEnds s₀ s) (hkey : s₀.currentKeyId.val < 8)
    (entries : List (UInt32 × Bytes)) :
    ∃ packets t, emitEach P clock (entries.map (repeated s₀)) s = (.ok packets, t) ∧
      List.Forall₂ (fun packet p => strip s₀ packet = Packet.serialize (.control (repeated s₀ p)))
        packets entries ∧ SameEnds s₀ t ∧ t.reliable = s.reliable := by
  induction entries generalizing s with
  | nil => exact ⟨[], s, rfl, .nil, hends, rfl⟩
  | cons p entries ih =>
    obtain ⟨packet, u, hemit, hstrip, hsame, hrel⟩ := emit_eq P clock s s₀ .controlV1 s₀.currentKeyId
      s₀.remoteSessionId [] (some p.1) p.2 rfl hkey
    obtain ⟨packets, t, hrest, hall, ht, hrel'⟩ := ih (hends.trans hsame)
    refine ⟨packet :: packets, t, ?_, .cons ?_ hall, ht, hrel'.trans hrel⟩
    · rw [List.map_cons, emitEach, bind_ok (show emit P clock (repeated s₀ p) s = (.ok packet, u) from hemit),
        bind_ok hrest]
      rfl
    · rw [← hends.strip_eq]
      exact hstrip

theorem getRetransmits_eq (P : Primitives) (clock : Clock) (hkey : s.currentKeyId.val < 8) :
    ∃ packets t, getRetransmits P clock s = (.ok packets, t) ∧
      List.Forall₂ (fun packet p => strip s packet = Packet.serialize (.control (repeated s p)))
        packets (s.reliable.getRetransmits P.time clock.now).1 ∧
      SameEnds s t ∧ t.reliable = (s.reliable.getRetransmits P.time clock.now).2 := by
  have hrun : getRetransmits P clock s =
      emitEach P clock ((s.reliable.getRetransmits P.time clock.now).1.map (repeated s))
        { s with reliable := (s.reliable.getRetransmits P.time clock.now).2 } := rfl
  rw [hrun]
  exact emitEach_repeated (sameEnds_reliable s _) hkey _

def retransmitContents (P : Primitives) (clock : Clock) (s : ProtocolSession) : List Content :=
  (s.reliable.getRetransmits P.time clock.now).1.map fun p => ⟨[], some p.1, p.2⟩

theorem getRetransmits_ok (hkey : s.currentKeyId.val < 8) {packets : List Bytes}
    (h : getRetransmits P clock s = (.ok packets, t)) :
    List.Forall₂ (Readable s) packets (retransmitContents P clock s) := by
  obtain ⟨packets', t', hrun, hall, -, -⟩ := getRetransmits_eq P clock hkey
  cases hrun.symm.trans h
  rw [retransmitContents, List.forall₂_map_right_iff]
  refine hall.imp fun packet p hstrip => ?_
  rw [Readable, hstrip]
  exact @parsesTo_iff s .controlV1 s.currentKeyId s.remoteSessionId ⟨[], some p.1, p.2⟩ rfl hkey (by simp)
    (.inr rfl)

end CoreVpn.Protocol.Builders
