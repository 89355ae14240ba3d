import CoreVpn.Protocol.ControlReplay
import CoreVpn.Protocol.Sending

namespace CoreVpn.Protocol.Isolation

open Lib.Computation Lib.Wire Crypto.Replay Crypto.Ciphers Crypto.Keys
open Errors Opcodes Packets Reliable TlsRecords Sessions ProtocolSession Sending Processing ControlReplay

variable {P : Primitives} {clock : Clock} {s : ProtocolSession} {data : Bytes} {ctrl ctrl' : ControlPacketData}

/-- Two control packets agree in everything but the session ids and the HMAC
that goes with them. -/
structure SameButIds (ctrl ctrl' : ControlPacketData) : Prop where
  opcode : ctrl'.header.opcode = ctrl.header.opcode
  keyId : ctrl'.header.keyId = ctrl.header.keyId
  packetId : ctrl'.header.packetId = ctrl.header.packetId
  timestamp : ctrl'.header.timestamp = ctrl.header.timestamp
  acks : ctrl'.acks = ctrl.acks
  messagePacketId : ctrl'.messagePacketId = ctrl.messagePacketId
  payload : ctrl'.payload = ctrl.payload

/-- The part of a session that a packet of another session should not touch. -/
structure Untouched (s t : ProtocolSession) : Prop where
  reliable : t.reliable = s.reliable
  tlsReassembler : t.tlsReassembler = s.tlsReassembler
  state : t.state = s.state

theorem processOpcode_congr (h : SameButIds ctrl ctrl') (hreset : ctrl.header.opcode.isHardReset = false) :
    processOpcode ctrl' = processOpcode ctrl := by
  cases hop : ctrl.header.opcode <;> rw [hop] at hreset
  all_goals try cases hreset
  all_goals simp only [processOpcode, h.opcode, hop, h.messagePacketId, h.payload]

theorem processControlPacket_congr (h : SameButIds ctrl ctrl')
    (hreset : ctrl.header.opcode.isHardReset = false) :
    processControlPacket P clock ctrl' = processControlPacket P clock ctrl := by
  rw [processControlPacket, processControlPacket, h.packetId, h.acks, processOpcode_congr h hreset]

def Refused (s : ProtocolSession) (id : UInt32) : Prop :=
  (TlsAuthWindow.checkAndUpdate id.toBitVec s.replayWindow : Outcome ProtocolError Bool × _).1 = .ok false

instance (s : ProtocolSession) (id : UInt32) : Decidable (Refused s id) := inferInstanceAs (Decidable (_ = _))

theorem checkReplay_refused {id : UInt32} (huse : s.useTlsAuth = true) (h : Refused s id) :
    ∃ w, checkReplay (some id) s = (.error (.error .replayDetected), { s with replayWindow := w }) := by
  cases hcall : (TlsAuthWindow.checkAndUpdate id.toBitVec s.replayWindow : Outcome ProtocolError Bool × _) with
  | mk result w =>
    have hresult : result = .ok false := by
      rw [Refused, hcall] at h
      exact h
    subst hresult
    refine ⟨w, ?_⟩
    simp only [checkReplay, bind_apply, get_apply, huse, zoom, hcall, Outcome.mapFault]
    rfl

/-- Session ids play no part once a session is open: a control packet other
than a hard reset has the same result and the same effect whatever ids it carries.
What leaves the session untouched is a wrong HMAC, or a tls-auth packet id that
the session's own window refuses. -/
theorem session_ids_not_checked (P : Primitives) (clock : Clock) (s : ProtocolSession) (data : Bytes)
    (ctrl : ControlPacketData) (hparse : Packet.parse data s.useTlsAuth = .ok (.control ctrl))
    (hreset : ctrl.header.opcode.isHardReset = false) :
    (s.verifyTlsAuth P data = .ok () → ∀ (data' : Bytes) (ctrl' : ControlPacketData),
      SameButIds ctrl ctrl' → s.verifyTlsAuth P data' = .ok () →
      Packet.parse data' s.useTlsAuth = .ok (.control ctrl') →
      processPacket P clock data' s = processPacket P clock data s) ∧
    (s.verifyTlsAuth P data ≠ .ok () → Untouched s (processPacket P clock data s).2) ∧
    (s.useTlsAuth = true → ∀ id, ctrl.header.packetId = some id → Refused s id →
      Untouched s (processPacket P clock data s).2) := by
  refine ⟨?_, ?_, ?_⟩
  · intro hverify data' ctrl' hsame hverify' hparse'
    rw [processPacket_control hverify' hparse', processPacket_control hverify hparse,
      processControlPacket_congr hsame hreset]
  · intro hverify
    cases herror : s.verifyTlsAuth P data with
    | ok _ => exact absurd herror hverify
    | error e =>
      rw [processPacket_of_verify_error herror]
      exact ⟨rfl, rfl, rfl⟩
  · intro huse id hid hrefused
    cases hverify : s.verifyTlsAuth P data with
    | error e =>
      rw [processPacket_of_verify_error hverify]
      exact ⟨rfl, rfl, rfl⟩
    | ok _ =>
      obtain ⟨w, hcheck⟩ := checkReplay_refused (s := noted clock s) huse hrefused
      have hrun : processControlPacket P clock ctrl (noted clock s) = _ := bind_error (hid ▸ hcheck)
      rw [processPacket_control hverify hparse, hrun]
      exact ⟨rfl, rfl, rfl⟩

section Runs

def clientId : SessionId := ⟨[1, 1, 1, 1, 1, 1, 1, 1], rfl⟩

def otherId : SessionId := ⟨[9, 9, 9, 9, 9, 9, 9, 9], rfl⟩

def recorded (opcode : OpCode) (sid : SessionId) (packetId : UInt32) (acks : List UInt32)
    (remote : Option SessionId) (messageId : Option UInt32) (payload : Bytes) : ControlPacketData :=
  ⟨⟨opcode, ⟨0⟩, some (sid), some (zeros 32), some packetId, some 0⟩, remote, acks,
    messageId, payload⟩

def opened : ProtocolSession :=
  let s := (ProtocolSession.newServer .aes256Gcm (zeros 8) 0).setTlsAuth (HmacAuth.fromSingleKey (zeros 32))
  let reset := recorded .hardResetClientV2 clientId 1 [] none (some 0) []
  let reset := (processPacket (.single []) ⟨0, 0⟩ (Packet.serialize (.control reset)) s).2
  (createHardResetResponse (.single []) ⟨0, 0⟩ reset).2

/-- An acknowledgement under a foreign id acts as one of the session's own client
does, and one whose tls-auth id has been used changes nothing. -/
theorem session_ids_not_checked_ack :
    let own := recorded .ackV1 clientId 2 [0] (some (zeros 8)) none []
    let foreign := recorded .ackV1 otherId 2 [0] (some otherId) none []
    let stale := recorded .ackV1 clientId 1 [0] (some (zeros 8)) none []
    let run := fun ctrl => processPacket (.single []) ⟨1, 0⟩ (Packet.serialize (.control ctrl)) opened
    run foreign = run own ∧ Untouched opened (run stale).2 := by
  intro own foreign stale run
  have hown := session_ids_not_checked (.single []) ⟨1, 0⟩ opened (Packet.serialize (.control own)) own
    (by decide +kernel +zetaReduce) (by decide +kernel +zetaReduce)
  have hstale := session_ids_not_checked (.single []) ⟨1, 0⟩ opened (Packet.serialize (.control stale)) stale
    (by decide +kernel +zetaReduce) (by decide +kernel +zetaReduce)
  refine ⟨hown.1 (by decide +kernel +zetaReduce) _ foreign ⟨rfl, rfl, rfl, rfl, rfl, rfl, rfl⟩ ?_ ?_, ?_⟩
  · decide +kernel +zetaReduce
  · decide +kernel +zetaReduce
  · exact hstale.2.2 (by decide +kernel) 1 rfl (by decide +kernel)

/-- Packets recorded in a session of another client: the acknowledgement takes
the server's reply out of the pending packets, the TLS fragment is delivered and
kept for reassembly, the soft reset moves the state. -/
theorem foreign_packets_taken :
    let ack := recorded .ackV1 otherId 2 [0] (some otherId) none []
    let fragment := recorded .controlV1 otherId 2 [] none (some 1) [22]
    let reset := recorded .softResetV1 otherId 2 [] none (some 7) []
    let run := fun ctrl => (processPacket (.single []) ⟨1, 0⟩ (Packet.serialize (.control ctrl)) opened).2
    opened.remoteSessionId = some clientId ∧ opened.localSessionId = zeros 8 ∧
    (∀ ctrl ∈ [ack, fragment, reset], ctrl.header.sessionId ≠ opened.remoteSessionId ∧
      opened.verifyTlsAuth (.single []) (Packet.serialize (.control ctrl)) = .ok () ∧
      Packet.parse (Packet.serialize (.control ctrl)) true = .ok (.control ctrl)) ∧
    (opened.reliable.pending.size = 1 ∧ (run ack).reliable.pending.size = 0) ∧
    ((run fragment).reliable.nextRecvId = 2 ∧ opened.reliable.nextRecvId = 1) ∧
    ((run fragment).tlsReassembler.buffer = [22] ∧ opened.tlsReassembler.buffer = []) ∧
    ((run reset).state = .rekeying ∧ opened.state = .tlsHandshake) := by
  decide +kernel

end Runs

end CoreVpn.Protocol.Isolation
