import CoreVpn.Crypto.Replay
import CoreVpn.Protocol.Processing

namespace CoreVpn.Protocol.ControlReplay

open Lib Lib.Computation Lib.Wire Lib.Machine Crypto.Replay Crypto.Ciphers Crypto.Keys
open Errors Opcodes Packets Sessions ProtocolSession SessionFrames Processing

inductive Call where
  | processPacket (clock : Clock) (data : Bytes)
  | rotateKey

/-- A call of `processPacket` gets past the replay check: the packet's HMAC is
right, it is a control packet, and the window takes its id. -/
def passesReplayCheck (P : Primitives) (s : ProtocolSession) (data : Bytes) : Bool :=
  match s.verifyTlsAuth P data, Packet.parse data s.useTlsAuth with
  | .ok (), .ok (.control ctrl) => (checkReplay ctrl.header.packetId s).1.isOk
  | _, _ => false

def step (P : Primitives) (s : ProtocolSession) : Call → List Bytes × ProtocolSession
  | .processPacket clock data =>
    (if passesReplayCheck P s data then [data] else [], (processPacket P clock data s).2)
  | .rotateKey => ([], s.rotateKey)

def passed (P : Primitives) (s : ProtocolSession) (calls : List Call) : List Bytes :=
  (outputs (step P) s calls).flatten

/-- The key is not rotated once the window has seen a packet. -/
def KeepsWindow (s : ProtocolSession) : Call → Prop
  | .processPacket _ _ => True
  | .rotateKey => s.replayWindow = ReplayWindow.new

instance (s : ProtocolSession) : (call : Call) → Decidable (KeepsWindow s call)
  | .processPacket _ _ => inferInstanceAs (Decidable True)
  | .rotateKey => inferInstanceAs (Decidable (_ = _))

def idOf (data : Bytes) : Nat :=
  match Packet.parse data true with
  | .ok (.control ctrl) => (ctrl.header.packetId.getD 0).toNat
  | _ => 0

variable {P : Primitives} {clock : Clock} {s : ProtocolSession} {data : Bytes} {A : Finset Nat}

theorem checkReplay_spec (huse : s.useTlsAuth = true) (ht : Tracks s.replayWindow A) (id : UInt32) :
    ∃ w, Tracks w (Lib.Replay.filter 64 A id.toNat).2 ∧
      checkReplay (some id) s = (if (Lib.Replay.filter 64 A id.toNat).1 then .ok ()
        else .error (.error .replayDetected), { s with replayWindow := w }) := by
  obtain ⟨ho, htracks⟩ :
      (TlsAuthWindow.checkAndUpdate id.toBitVec s.replayWindow : Outcome ProtocolError Bool × _).1 =
          .ok (Lib.Replay.filter 64 A id.toNat).1 ∧
        Tracks (TlsAuthWindow.checkAndUpdate (ε := ProtocolError) id.toBitVec s.replayWindow).2
          (Lib.Replay.filter 64 A id.toNat).2 :=
    checkAndUpdate_spec rfl (by decide) ht id.toBitVec
  refine ⟨_, htracks, ?_⟩
  cases hcall : (TlsAuthWindow.checkAndUpdate id.toBitVec s.replayWindow : Outcome ProtocolError Bool × _) with
  | mk result w =>
    rw [hcall] at ho
    subst ho
    simp only [checkReplay, bind_apply, get_apply, huse, zoom, hcall, Outcome.mapFault]
    cases (Lib.Replay.filter 64 A id.toNat).1 <;> rfl

structure SameWindow (s t : ProtocolSession) : Prop where
  useTlsAuth : t.useTlsAuth = s.useTlsAuth
  replayWindow : t.replayWindow = s.replayWindow

instance : IsPreorder ProtocolSession SameWindow where
  refl _ := ⟨rfl, rfl⟩
  trans _ _ _ h h' := ⟨h'.1.trans h.1, h'.2.trans h.2⟩

theorem tolerates_sameWindow : Tolerates SameWindow where
  reliable _ _ _ := ⟨rfl, rfl⟩
  tlsReassembler _ _ _ := ⟨rfl, rfl⟩
  remoteSessionId _ _ := ⟨rfl, rfl⟩
  state _ _ _ := ⟨rfl, rfl⟩

theorem exists_packetId {ctrl : ControlPacketData} (h : Packet.parse data true = .ok (.control ctrl)) :
    ∃ id, ctrl.header.packetId = some id := by
  obtain ⟨⟨hhead, hop, -⟩, -⟩ := PacketCodec.parse_eq_ok_iff.mp h
  rw [← Option.isSome_iff_exists, hhead.packetId, hop]
  rfl

theorem tracks_control {ctrl : ControlPacketData} (clock : Clock) (huse : s.useTlsAuth = true)
    (ht : Tracks s.replayWindow A) (hverify : s.verifyTlsAuth P data = .ok ())
    (hparse : Packet.parse data s.useTlsAuth = .ok (.control ctrl)) :
    (processPacket P clock data s).2.useTlsAuth = true ∧
      passesReplayCheck P s data = (Lib.Replay.filter 64 A (idOf data)).1 ∧
      Tracks (processPacket P clock data s).2.replayWindow (Lib.Replay.filter 64 A (idOf data)).2 := by
  obtain ⟨id, hid⟩ := exists_packetId (huse ▸ hparse)
  obtain ⟨w, -, hcheck⟩ := checkReplay_spec huse ht id
  obtain ⟨w', htracks, hcheck'⟩ := checkReplay_spec (s := noted clock s) huse ht id
  have hof : idOf data = id.toNat := by
    rw [idOf, ← huse, hparse]
    simp only [hid, Option.getD_some]
  have hpass : passesReplayCheck P s data = (Lib.Replay.filter 64 A id.toNat).1 := by
    simp only [passesReplayCheck, hverify, hparse, hid, hcheck]
    cases (Lib.Replay.filter 64 A id.toNat).1 <;> rfl
  rw [processPacket_control hverify hparse, hof]
  by_cases hadm : Lib.Replay.Admits 64 A id.toNat
  · rw [Lib.Replay.filter_true hadm] at hcheck'
    have hsame := frames_processAccepted P clock tolerates_sameWindow ctrl
      { noted clock s with replayWindow := w' }
    have hrun : processControlPacket P clock ctrl (noted clock s) = _ := bind_ok (hid ▸ hcheck')
    rw [hrun, hsame.useTlsAuth, hsame.replayWindow]
    exact ⟨huse, hpass, htracks⟩
  · rw [Lib.Replay.filter_false hadm] at hcheck'
    have hrun : processControlPacket P clock ctrl (noted clock s) = _ := bind_error (hid ▸ hcheck')
    rw [hrun]
    exact ⟨huse, hpass, htracks⟩

/-- What a call does to the ids the window stands for: the id of a packet that
gets past the check is new and is taken in, and nothing else changes them. -/
theorem tracks_processPacket (P : Primitives) (clock : Clock) (data : Bytes) (huse : s.useTlsAuth = true)
    (ht : Tracks s.replayWindow A) :
    (processPacket P clock data s).2.useTlsAuth = true ∧
      if passesReplayCheck P s data then
        idOf data ∉ A ∧ Tracks (processPacket P clock data s).2.replayWindow (insert (idOf data) A)
      else Tracks (processPacket P clock data s).2.replayWindow A := by
  cases hverify : s.verifyTlsAuth P data with
  | error e =>
    rw [passesReplayCheck, hverify, processPacket_of_verify_error hverify]
    exact ⟨huse, ht⟩
  | ok _ =>
    cases hparse : Packet.parse data s.useTlsAuth with
    | error e =>
      rw [passesReplayCheck, hverify, hparse, processPacket_of_parse_error hverify hparse]
      exact ⟨huse, ht⟩
    | ok packet =>
      cases packet with
      | data packet =>
        have hsame := frames_processDataPacket P (R := SameWindow) (fun _ _ => ⟨rfl, rfl⟩) packet (noted clock s)
        rw [passesReplayCheck, hverify, hparse, processPacket_data hverify hparse, hsame.useTlsAuth,
          hsame.replayWindow]
        exact ⟨huse, ht⟩
      | control ctrl =>
        obtain ⟨huse', hpass, htracks⟩ := tracks_control clock huse ht hverify hparse
        refine ⟨huse', ?_⟩
        by_cases hadm : Lib.Replay.Admits 64 A (idOf data)
        · rw [Lib.Replay.filter_true hadm] at hpass htracks
          rw [hpass, if_pos rfl]
          exact ⟨hadm.2.1, htracks⟩
        · rw [Lib.Replay.filter_false hadm] at hpass htracks
          rw [hpass, if_neg Bool.false_ne_true]
          exact htracks

theorem passed_cons (call : Call) (calls : List Call) :
    passed P s (call :: calls) = (step P s call).1 ++ passed P (step P s call).2 calls := by
  rw [passed, outputs_cons, List.flatten_cons, passed]

theorem passed_nodup (calls : List Call) (huse : s.useTlsAuth = true) (ht : Tracks s.replayWindow A)
    (hkeep : EachStep (step P) KeepsWindow s calls) :
    (passed P s calls).Nodup ∧ ∀ data ∈ passed P s calls, idOf data ∉ A := by
  induction calls generalizing s A with
  | nil => exact ⟨List.nodup_nil, fun _ h => absurd h List.not_mem_nil⟩
  | cons call calls ih =>
    obtain ⟨hcall, hrest⟩ := hkeep
    rw [passed_cons]
    cases call with
    | rotateKey =>
      have hwindow : s.rotateKey.replayWindow = s.replayWindow := Eq.symm hcall
      exact ih (s := s.rotateKey) huse (hwindow ▸ ht) hrest
    | processPacket clock data =>
      obtain ⟨huse', hwindow⟩ := tracks_processPacket P clock data huse ht
      cases hpass : passesReplayCheck P s data with
      | false =>
        rw [hpass, if_neg Bool.false_ne_true] at hwindow
        have hnone : (step P s (.processPacket clock data)).1 = [] := by
          rw [step, hpass]
          rfl
        rw [hnone, List.nil_append]
        exact ih huse' hwindow hrest
      | true =>
        rw [hpass, if_pos rfl] at hwindow
        have hone : (step P s (.processPacket clock data)).1 = [data] := by
          rw [step, hpass]
          rfl
        rw [hone]
        obtain ⟨hnodup, hnew⟩ := ih huse' hwindow.2 hrest
        refine ⟨List.nodup_cons.mpr ⟨fun hmem => ?_, hnodup⟩, fun d hd => ?_⟩
        · exact hnew data hmem (Finset.mem_insert_self _ _)
        · rcases List.mem_cons.mp hd with rfl | hd
          · exact hwindow.1
          · exact fun hmem => hnew d hd (Finset.mem_insert_of_mem hmem)

/-- No control packet gets past the replay check twice in the lifetime of a
session, as long as the key is not rotated once the window has seen a packet. -/
theorem control_packets_pass_once (P : Primitives) (s : ProtocolSession) (calls : List Call)
    (huse : s.useTlsAuth = true) (hnew : s.replayWindow = ReplayWindow.new)
    (hkeep : EachStep (step P) KeepsWindow s calls) : (passed P s calls).Nodup :=
  (passed_nodup calls huse (hnew ▸ tracks_new) hkeep).1

theorem control_packet_passes_once :
    let P := Primitives.single []
    let s := (ProtocolSession.newServer .aes256Gcm (zeros 8) 0).setTlsAuth (HmacAuth.fromSingleKey (zeros 32))
    let packet : Bytes := [40, 1, 2, 3, 4, 5, 6, 7, 8] ++ (zeros 32).toList ++ [0, 0, 0, 1, 0, 0, 0, 0, 0]
    let calls : List Call := [.rotateKey, .processPacket ⟨0, 0⟩ packet, .processPacket ⟨1, 0⟩ packet]
    passed P s calls = [packet] ∧ (passed P s calls).Nodup := by
  intro P s packet calls
  refine ⟨by decide +kernel +zetaReduce, ?_⟩
  exact control_packets_pass_once P s calls rfl rfl (by decide +kernel +zetaReduce)

/-- Rotating the key empties the window although the tls-auth key stays, and
the same bytes pass again. -/
theorem control_packet_passes_again :
    let P := Primitives.single []
    let s := (ProtocolSession.newServer .aes256Gcm (zeros 8) 0).setTlsAuth (HmacAuth.fromSingleKey (zeros 32))
    let packet : Bytes := [40, 1, 2, 3, 4, 5, 6, 7, 8] ++ (zeros 32).toList ++ [0, 0, 0, 1, 0, 0, 0, 0, 0]
    let calls : List Call := [.processPacket ⟨0, 0⟩ packet, .rotateKey, .processPacket ⟨1, 0⟩ packet]
    passed P s calls = [packet, packet] ∧ ¬ (passed P s calls).Nodup := by
  decide +kernel

end CoreVpn.Protocol.ControlReplay
