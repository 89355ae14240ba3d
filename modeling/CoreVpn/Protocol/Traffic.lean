import CoreVpn.Lib.Machine
import CoreVpn.Protocol.Builders
import CoreVpn.Protocol.SessionFrames

namespace CoreVpn.Protocol.Traffic

open Lib.Computation Lib.Wire Lib.Machine Crypto.Ciphers Crypto.Keys
open Errors Opcodes Packets Reliable Sessions ProtocolSession Sending Readback Builders SessionFrames

inductive Call where
  | processPacket (clock : Clock) (data : Bytes)
  | createHardResetClient (clock : Clock)
  | createHardResetResponse (clock : Clock)
  | createControlPacket (clock : Clock) (tlsData : Bytes)
  | createControlPackets (clock : Clock) (tlsData : Bytes)
  | createAckPacket (clock : Clock)
  | getRetransmits (clock : Clock)

def handOut {α : Type} (packets : α → List Bytes) (r : Outcome ProtocolError α × ProtocolSession) :
    List Bytes × ProtocolSession :=
  match r with
  | (.ok a, t) => (packets a, t)
  | (.error _, t) => ([], t)

def step (P : Primitives) (s : ProtocolSession) : Call → List Bytes × ProtocolSession
  | .processPacket clock data => ([], (processPacket P clock data s).2)
  | .createHardResetClient clock => handOut ([·]) (createHardResetClient P clock s)
  | .createHardResetResponse clock => handOut ([·]) (createHardResetResponse P clock s)
  | .createControlPacket clock tlsData => handOut ([·]) (createControlPacket P clock tlsData s)
  | .createControlPackets clock tlsData => handOut id (createControlPackets P clock tlsData s)
  | .createAckPacket clock => handOut Option.toList (createAckPacket P clock s)
  | .getRetransmits clock => handOut id (getRetransmits P clock s)

def contents (P : Primitives) (s : ProtocolSession) : Call → List Content
  | .processPacket _ _ => []
  | .createHardResetClient _ => [⟨[], some s.reliable.nextSendId, []⟩]
  | .createHardResetResponse _ => [⟨s.reliable.pendingAcks, some s.reliable.nextSendId, []⟩]
  | .createControlPacket _ tlsData =>
    [⟨s.reliable.pendingAcks, some s.reliable.nextSendId, tlsData⟩]
  | .createControlPackets _ tlsData =>
    splitContents s.reliable.pendingAcks s.reliable.nextSendId
      (if tlsData.length ≤ maxControlPayload then [tlsData] else chunks tlsData.length tlsData)
  | .createAckPacket _ => [⟨s.reliable.pendingAcks, none, []⟩]
  | .getRetransmits clock => retransmitContents P clock s

/-- The pending acknowledgments fit, if the call is one that sends them. -/
def AcksFit (s : ProtocolSession) : Call → Prop
  | .createHardResetResponse _ | .createControlPacket _ _ | .createControlPackets _ _
  | .createAckPacket _ => Fits s s.reliable.pendingAcks
  | _ => True

instance (s : ProtocolSession) : (call : Call) → Decidable (AcksFit s call)
  | .createHardResetResponse _ | .createControlPacket _ _ | .createControlPackets _ _
  | .createAckPacket _ => inferInstanceAs (Decidable (Fits _ _))
  | .processPacket _ _ | .createHardResetClient _ | .getRetransmits _ => inferInstanceAs (Decidable True)

variable {P : Primitives} {s : ProtocolSession}

theorem fits_nil (s : ProtocolSession) : Fits s [] := ⟨Nat.zero_le _, .inl rfl⟩

theorem fits_splitContents {acks : List UInt32} {id : UInt32} {chunks : List Bytes} (h : chunks ≠ []) :
    (∀ c ∈ splitContents acks id chunks, Fits s c.acks) ↔ Fits s acks := by
  have hrest : ∀ (id : UInt32) (rest : List Bytes), ∀ c ∈ splitContents [] id rest, c.acks = [] := by
    intro id rest
    induction rest generalizing id with
    | nil => exact fun c hc => absurd hc List.not_mem_nil
    | cons chunk rest ih =>
      intro c hc
      rcases List.mem_cons.mp hc with rfl | hc
      · rfl
      · exact ih _ c hc
  cases chunks with
  | nil => exact absurd rfl h
  | cons chunk rest =>
    constructor
    · exact fun hall => hall _ List.mem_cons_self
    · intro hfit c hc
      rcases List.mem_cons.mp hc with rfl | hc
      · exact hfit
      · rw [hrest _ _ c hc]
        exact fits_nil s

theorem chunks_ne_nil {data : Bytes} (h : ¬ data.length ≤ maxControlPayload) :
    chunks data.length data ≠ [] := by
  cases data with
  | nil => exact absurd (Nat.zero_le _) h
  | cons b data => exact List.cons_ne_nil _ _

theorem acksFit_iff (call : Call) (h : contents P s call ≠ []) :
    AcksFit s call ↔ ∀ c ∈ contents P s call, Fits s c.acks := by
  cases call with
  | processPacket clock data => exact absurd rfl h
  | createHardResetClient clock => simp [AcksFit, contents, fits_nil]
  | createHardResetResponse clock => simp [AcksFit, contents]
  | createControlPacket clock tlsData => simp [AcksFit, contents]
  | createControlPackets clock tlsData =>
    refine (fits_splitContents ?_).symm
    split
    · exact List.cons_ne_nil _ _
    · rename_i hlong
      exact chunks_ne_nil hlong
  | createAckPacket clock => simp [AcksFit, contents]
  | getRetransmits clock =>
    refine iff_of_true trivial fun c hc => ?_
    obtain ⟨p, -, rfl⟩ := List.mem_map.mp hc
    exact fits_nil s

theorem handOut_ne_nil {α : Type} {packets : α → List Bytes}
    {r : Outcome ProtocolError α × ProtocolSession} (h : (handOut packets r).1 ≠ []) :
    ∃ a t, r = (.ok a, t) ∧ (handOut packets r).1 = packets a := by
  obtain ⟨result, t⟩ := r
  cases result with
  | ok a => exact ⟨a, t, rfl, rfl⟩
  | error e => exact absurd rfl h

theorem step_readable (hkey : s.currentKeyId.val < 8) (call : Call) (h : (step P s call).1 ≠ []) :
    List.Forall₂ (Readable s) (step P s call).1 (contents P s call) := by
  cases call with
  | processPacket clock data => exact absurd rfl h
  | createHardResetClient clock =>
    obtain ⟨packet, t, hr, ho⟩ := handOut_ne_nil h
    rw [step, ho]
    exact .cons (createHardResetClient_ok hr) .nil
  | createHardResetResponse clock =>
    obtain ⟨packet, t, hr, ho⟩ := handOut_ne_nil h
    rw [step, ho]
    exact .cons (createReliable_ok rfl (by decide) (fun _ => rfl) (by decide) hr).2.1 .nil
  | createControlPacket clock tlsData =>
    obtain ⟨packet, t, hr, ho⟩ := handOut_ne_nil h
    rw [step, ho]
    exact .cons (createReliable_ok rfl (by decide) (fun _ => rfl) hkey hr).2.1 .nil
  | createControlPackets clock tlsData =>
    obtain ⟨packets, t, hr, ho⟩ := handOut_ne_nil h
    rw [step, ho, contents]
    rw [createControlPackets] at hr
    split at hr <;> rename_i hlen
    · rw [if_pos hlen]
      exact createEach_ok hkey hr
    · rw [if_neg hlen]
      exact createEach_ok hkey hr
  | createAckPacket clock =>
    obtain ⟨packet, t, hr, ho⟩ := handOut_ne_nil h
    cases packet with
    | none => exact absurd ho h
    | some packet =>
      rw [step, ho]
      exact .cons (createAckPacket_ok hkey hr) .nil
  | getRetransmits clock =>
    obtain ⟨packets, t, hr, ho⟩ := handOut_ne_nil h
    rw [step, ho]
    exact getRetransmits_ok hkey hr

theorem handOut_snd {α : Type} (packets : α → List Bytes)
    (r : Outcome ProtocolError α × ProtocolSession) : (handOut packets r).2 = r.2 := by
  obtain ⟨result, t⟩ := r
  cases result <;> rfl

theorem rel_step {R : ProtocolSession → ProtocolSession → Prop} [IsPreorder ProtocolSession R] (hR : Sends R)
    (P : Primitives) (s : ProtocolSession) {call : Call}
    (hincoming : ∀ clock data, call = .processPacket clock data → R s (processPacket P clock data s).2) :
    R s (step P s call).2 := by
  cases call with
  | processPacket clock data => exact hincoming clock data rfl
  | createHardResetClient clock =>
    rw [step, handOut_snd]
    exact frames_createHardResetClient P clock hR s
  | createHardResetResponse clock =>
    rw [step, handOut_snd]
    exact frames_createReliable P clock hR _ _ _ s
  | createControlPacket clock tlsData =>
    rw [step, handOut_snd]
    exact frames_createReliable P clock hR _ _ _ s
  | createControlPackets clock tlsData =>
    rw [step, handOut_snd]
    exact frames_createControlPackets P clock hR tlsData s
  | createAckPacket clock =>
    rw [step, handOut_snd]
    exact frames_createAckPacket P clock hR s
  | getRetransmits clock =>
    rw [step, handOut_snd]
    exact frames_getRetransmits P clock hR s

theorem sends_onward : Sends Onward where
  reliable _ _ _ := ⟨rfl, id⟩
  tlsAuthPacketId _ _ := ⟨rfl, id⟩

theorem step_keyId (P : Primitives) (s : ProtocolSession) (call : Call) :
    (step P s call).2.currentKeyId = s.currentKeyId :=
  (rel_step sends_onward P s fun clock data _ => frames_processPacket P clock data s).currentKeyId

def fresh (isServer : Bool) (suite : CipherSuite) (sessionId : SessionId) (now : Instant)
    (tlsAuth : Option HmacAuth) : ProtocolSession :=
  let s := if isServer then newServer suite sessionId now else newClient suite sessionId now
  match tlsAuth with
  | some key => s.setTlsAuth key
  | none => s

theorem exec_keyId (P : Primitives) (isServer : Bool) (suite : CipherSuite) (sessionId : SessionId)
    (now : Instant) (tlsAuth : Option HmacAuth) (calls : List Call) :
    (exec (step P) (fresh isServer suite sessionId now tlsAuth) calls).currentKeyId.val < 8 := by
  refine exec_of_step (P := fun s : ProtocolSession => s.currentKeyId.val < 8) (fun s call h => ?_) ?_ calls
  · rw [step_keyId]
    exact h
  · have hzero : (fresh isServer suite sessionId now tlsAuth).currentKeyId = ⟨0⟩ := by
      cases isServer <;> cases tlsAuth <;> rfl
    rw [hzero]
    decide

theorem forall₂_readable_iff {packets : List Bytes} {contents : List Content}
    (h : List.Forall₂ (Readable s) packets contents) :
    List.Forall₂ (fun packet content => ParsesTo (strip s packet) content) packets contents ↔
      ∀ c ∈ contents, Fits s c.acks := by
  induction h with
  | nil => simp
  | cons hread _ ih =>
    rw [List.forall₂_cons, ih, List.forall_mem_cons]
    exact and_congr_left fun _ => hread

/-- From every state that a new session reaches, and for every call that hands
out packets: without their tls-auth fields they parse to control packets with the
acks, message ids and payloads put in, if and only if the pending acknowledgments
fit. So in a run in which they always fit, everything sent reads back. -/
theorem sent_packets_read_back (P : Primitives) (isServer : Bool) (suite : CipherSuite)
    (sessionId : SessionId) (now : Instant) (tlsAuth : Option HmacAuth) :
    let start := fresh isServer suite sessionId now tlsAuth
    (∀ (calls : List Call) (call : Call),
      let s := exec (step P) start calls
      (step P s call).1 ≠ [] →
        (List.Forall₂ (fun packet content => ParsesTo (strip s packet) content) (step P s call).1
          (contents P s call) ↔ AcksFit s call)) ∧
    (∀ calls : List Call, EachStep (step P) AcksFit start calls →
      ∀ (before : List Call) (call : Call) (rest : List Call), calls = before ++ call :: rest →
        let s := exec (step P) start before
        (step P s call).1 = [] ∨
          List.Forall₂ (fun packet content => ParsesTo (strip s packet) content) (step P s call).1
            (contents P s call)) := by
  intro start
  have hcall : ∀ (calls : List Call) (call : Call),
      (step P (exec (step P) start calls) call).1 ≠ [] →
        (List.Forall₂ (fun packet content => ParsesTo (strip (exec (step P) start calls) packet) content)
          (step P (exec (step P) start calls) call).1 (contents P (exec (step P) start calls) call) ↔
          AcksFit (exec (step P) start calls) call) := by
    intro calls call hne
    have hread := step_readable (exec_keyId P isServer suite sessionId now tlsAuth calls) call hne
    have hcontents : contents P (exec (step P) start calls) call ≠ [] := by
      intro hnil
      rw [hnil] at hread
      exact hne (List.forall₂_nil_right_iff.mp hread)
    rw [forall₂_readable_iff hread, acksFit_iff call hcontents]
  refine ⟨hcall, fun calls hfit before call rest hsplit => ?_⟩
  by_cases hne : (step P (exec (step P) start before) call).1 = []
  · exact .inl hne
  · exact .inr ((hcall before call hne).mpr (EachStep.iff.mp hfit before call rest hsplit))

theorem hard_reset_response_reads_back :
    let P := Primitives.single []
    let start := fresh true .aes256Gcm (zeros 8) 0 none
    let reset : Call := .processPacket ⟨0, 0⟩ [56, 1, 2, 3, 4, 5, 6, 7, 8, 0, 0, 0, 0, 0]
    let s := exec (step P) start [reset]
    (step P s (.createHardResetResponse ⟨0, 0⟩)).1.length = 1 ∧
      List.Forall₂ (fun packet content => ParsesTo (strip s packet) content)
        (step P s (.createHardResetResponse ⟨0, 0⟩)).1 [⟨[0], some 0, []⟩] := by
  intro P start reset s
  have hone : (step P s (.createHardResetResponse ⟨0, 0⟩)).1.length = 1 := by decide +kernel +zetaReduce
  have hfit : EachStep (step P) AcksFit start [reset, .createHardResetResponse ⟨0, 0⟩] := by
    decide +kernel +zetaReduce
  have hcontents : contents P s (.createHardResetResponse ⟨0, 0⟩) = [⟨[0], some 0, []⟩] := by
    decide +kernel +zetaReduce
  refine ⟨hone, hcontents ▸ ?_⟩
  refine ((sent_packets_read_back P true .aes256Gcm (zeros 8) 0 none).2 _ hfit [reset]
    (.createHardResetResponse ⟨0, 0⟩) [] rfl).resolve_left fun hnil => ?_
  change (step P s (.createHardResetResponse ⟨0, 0⟩)).1 = [] at hnil
  rw [hnil] at hone
  cases hone

/-- A server that has seen a control packet but no hard reset, and one that has
17 acknowledgments pending: the packet either hands out does not parse. -/
theorem ack_packet_unreadable :
    let P := Primitives.single []
    let start := fresh true .aes256Gcm (zeros 8) 0 none
    let reset : Call := .processPacket ⟨0, 0⟩ [56, 1, 2, 3, 4, 5, 6, 7, 8, 0, 0, 0, 0, 0]
    let control : Nat → Call := fun i =>
      .processPacket ⟨0, 0⟩ [32, 1, 2, 3, 4, 5, 6, 7, 8, 0, 0, 0, 0, UInt8.ofNat i]
    let noId := exec (step P) start [control 0]
    let many := exec (step P) start (reset :: (List.range 16).map fun i => control (i + 1))
    contents P noId (.createAckPacket ⟨0, 0⟩) = [⟨[0], none, []⟩] ∧
      (step P noId (.createAckPacket ⟨0, 0⟩)).1.map (fun packet =>
        (Packet.parse (strip noId packet) false).toOption) = [none] ∧
      (contents P many (.createAckPacket ⟨0, 0⟩)).map (fun c => c.acks.length) = [17] ∧
      (step P many (.createAckPacket ⟨0, 0⟩)).1.map (fun packet =>
        (Packet.parse (strip many packet) false).toOption) = [none] := by
  decide +kernel

end CoreVpn.Protocol.Traffic
